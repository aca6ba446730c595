import UrlHarvest.Pattern.Capture
import UrlHarvest.Scan.Line

namespace UrlHarvest

namespace CapturePass

def firstGroup (pattern : Pattern) : CapturePass :=
  ⟨pattern, Match.firstGroup⟩

-- The target of a link: its first word, so that a title after it does not count, and without
-- angle brackets around it.
def linkTarget (raw : Text) : Text :=
  let word := Text.firstWord raw
  if word.head? = some '<' ∧ word.getLast? = some '>' then (word.drop 1).dropLast else word

def markdownLink : CapturePass :=
  ⟨.markdownLink, fun found => linkTarget ((found.groups.getD 1 none).getD [])⟩

end CapturePass

namespace LineScanner

-- Only targets with a scheme are reported: there is no base to resolve others against.
def markdown : LineScanner where
  name := "markdown"
  formats := [.markdown]
  comments := .markdown
  captures := [.markdownLink, .firstGroup .markdownAutolink]
  inlineCode := true

def html : LineScanner where
  name := "html"
  formats := [.html]
  comments := .markup
  captures := [.firstGroup .htmlHref, .firstGroup .htmlSource, .firstGroup .htmlAction]

def xml : LineScanner where
  name := "xml"
  formats := [.xml]
  comments := .markup
  captures := [.firstGroup .xmlAttribute]

-- Stylesheets only refer to resources that can be fetched.
def css : LineScanner where
  name := "css"
  formats := [.css]
  comments := .css
  captures := [.firstGroup .cssUrl, .firstGroup .cssImport]
  rules := [.web, .ftp, .file]

def script : LineScanner where
  name := "script"
  formats := [.javascript, .typescript]
  captures := [.firstGroup .stringLiteral]

def json : LineScanner where
  name := "json"
  formats := [.json]

def yaml : LineScanner where
  name := "yaml"
  formats := [.yaml, .yml]
  comments := .hash

def properties : LineScanner where
  name := "properties"
  formats := [.properties]
  comments := .properties

def builtin : List LineScanner :=
  [markdown, html, css, script, json, yaml, properties, xml]

end LineScanner

end UrlHarvest
