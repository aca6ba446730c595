import UrlHarvest.Text.Basic

namespace UrlHarvest.Text

-- The small letter that stands for `c` when a pattern disregards case. Besides the ASCII
-- capitals three letters fold into ASCII: the long s, the Kelvin sign and the dotted capital I.
def foldLetter (c : Char) : Char :=
  if 'A' ≤ c && c ≤ 'Z' then c.toLower
  else if c = 'ſ' then 's'
  else if c = '\u212A' then 'k'
  else if c = 'İ' then 'i'
  else c

-- Capitals as the names of levels need them. Besides the ASCII letters, the dotless i and the long
-- s have a capital in ASCII.
def capitalLetter (c : Char) : Char :=
  if 'a' ≤ c && c ≤ 'z' then c.toUpper
  else if c = 'ı' then 'I'
  else if c = 'ſ' then 'S'
  else c

def capitals (text : Text) : Text :=
  text.map capitalLetter

-- Takes `word` off the front of the text, in any letter case. The word is written in small
-- letters.
def dropWord? : (word text : Text) → Option Text
  | [], text => some text
  | _ :: _, [] => none
  | w :: word, c :: text => if foldLetter c = w then dropWord? word text else none

theorem length_of_dropWord? {word text rest : Text} (h : dropWord? word text = some rest) :
    text.length = word.length + rest.length := by
  induction word generalizing text with
  | nil => simp_all [dropWord?]
  | cons w word ih =>
    cases text with
    | nil => simp [dropWord?] at h
    | cons c text =>
      simp only [dropWord?] at h
      split at h
      · have := ih h
        simp only [List.length_cons]
        omega
      · simp at h

end UrlHarvest.Text
