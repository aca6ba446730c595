import UrlHarvest.Text.Lowercase
import UrlHarvest.Text.Space

namespace UrlHarvest

inductive FileFormat
  | markdown
  | html
  | css
  | javascript
  | typescript
  | json
  | yaml
  | yml
  | properties
  | toml
  | ini
  | xml
  | unknown
deriving Repr, DecidableEq, Inhabited

namespace FileFormat

def tag : FileFormat → String
  | markdown => "markdown"
  | html => "html"
  | css => "css"
  | javascript => "javascript"
  | typescript => "typescript"
  | json => "json"
  | yaml => "yaml"
  | yml => "yml"
  | properties => "properties"
  | toml => "toml"
  | ini => "ini"
  | xml => "xml"
  | unknown => "unknown"

def all : List FileFormat :=
  [markdown, html, css, javascript, typescript, json, yaml, yml, properties, toml, ini, xml,
    unknown]

def ofTag? (text : String) : Option FileFormat :=
  all.find? (·.tag == text)

theorem mem_all (format : FileFormat) : format ∈ all := by
  cases format <;> decide

theorem ofTag?_tag (format : FileFormat) : ofTag? format.tag = some format := by
  cases format <;> decide

-- The format that a host's tag asks for. `yml` is a second spelling of `yaml`, and a tag that
-- names no format asks for `unknown`.
def resolve (request : String) : FileFormat :=
  let text := String.ofList (Text.lower (Text.trim request.toList))
  if text = yml.tag then yaml else (ofTag? text).getD unknown

private def suffixes : List (String × FileFormat) := [
  (".md", markdown), (".markdown", markdown), (".html", html), (".htm", html), (".css", css),
  (".js", javascript), (".mjs", javascript), (".cjs", javascript), (".jsx", javascript),
  (".ts", typescript), (".tsx", typescript), (".json", json), (".yaml", yaml), (".yml", yaml),
  (".properties", properties), (".toml", toml), (".ini", ini), (".cfg", ini), (".xml", xml),
  (".pom", xml)]

-- The format of a file whose name ends in `suffix`, dot included.
def ofSuffix (suffix : Text) : FileFormat :=
  let text := String.ofList (Text.lower suffix)
  ((suffixes.find? (·.1 == text)).map (·.2)).getD unknown

end FileFormat

end UrlHarvest
