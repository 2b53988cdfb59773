import Qdmi.Core.Prefixing
import Qdmi.Lib.Placeholders

/-!
# Generating a Device Template

`GenerateTemplate.cmake`: the contents of the files of a new device.

The files of the template use the prefix `MY`, in names, paths and settings.
The script goes over a file once for each of twelve patterns, and every pass
searches what the passes before it have left. `string(REPLACE)` and
`string(REGEX REPLACE)` replace from left to right; the one regular expression
has no operators, and an identifier has no backslash that the replacement could
take for a reference.

What the passes are for is to put the prefix in place of the letters of the
placeholders, `instantiated`: of all that stand in the file, and of no others.

## Main definitions

* `toLower`, `Identifier.lower`: `string(TOLOWER)`.
* `substitutions`: The patterns in order and what is put for them.
* `generate`: The passes over the content of a file.
* `placeholders`: The same patterns as placeholders.
* `instantiated`: The content with its placeholders replaced.
-/

namespace Qdmi

/-- `string(TOLOWER)` on a character. -/
def toLower (c : UInt8) : UInt8 := if 65 ≤ c ∧ c ≤ 90 then c + 32 else c

/-- `QDMI_TEMPLATE_prefix`. -/
def Identifier.lower (templatePrefix : Identifier) : List UInt8 := templatePrefix.chars.map toLower

/-- The patterns of the loop and what is put for them. -/
def substitutions (templatePrefix : Identifier) : List (List UInt8 × List UInt8) :=
  let upper := templatePrefix.chars
  let lower := templatePrefix.lower
  [(ascii "set(QDMI_PREFIX \"MY\")", ascii "set(QDMI_PREFIX \"" ++ upper ++ ascii "\")"),
   (ascii "MY_", upper ++ ascii "_"),
   (ascii "MY QDMI", upper ++ ascii " QDMI"),
   (ascii "my_", lower ++ ascii "_"),
   (ascii "my-", lower ++ ascii "-"),
   (ascii "python/my", ascii "python/" ++ lower),
   (ascii "my/qdmi", lower ++ ascii "/qdmi"),
   (ascii "my-qdmi", lower ++ ascii "-qdmi"),
   (ascii "my.qdmi", lower ++ ascii ".qdmi"),
   (ascii "my.default", lower ++ ascii ".default"),
   (ascii "\"my\"", ascii "\"" ++ upper ++ ascii "\""),
   (ascii "--namespace-pkg my", ascii "--namespace-pkg " ++ lower)]

/-- The content of a file of the template, one pass for each pattern. -/
def generate (templatePrefix : Identifier) (content : List UInt8) : List UInt8 :=
  (substitutions templatePrefix).foldl (fun content rule => substitute [rule] content) content

/-- `MY` between two texts. -/
def upperPlace (left right : String) (new : List UInt8) : Placeholder UInt8 :=
  ⟨ascii left, 77, 89, ascii right, new⟩

/-- `my` between two texts. -/
def lowerPlace (left right : String) (new : List UInt8) : Placeholder UInt8 :=
  ⟨ascii left, 109, 121, ascii right, new⟩

/-- The patterns as placeholders, when `quoted` is put for the one in quotes. -/
def placeholders (upper lower quoted : List UInt8) : List (Placeholder UInt8) :=
  [upperPlace "set(QDMI_PREFIX \"" "\")" upper,
   upperPlace "" "_" upper,
   upperPlace "" " QDMI" upper,
   lowerPlace "" "_" lower,
   lowerPlace "" "-" lower,
   lowerPlace "python/" "" lower,
   lowerPlace "" "/qdmi" lower,
   lowerPlace "" "-qdmi" lower,
   lowerPlace "" ".qdmi" lower,
   lowerPlace "" ".default" lower,
   lowerPlace "\"" "\"" quoted,
   lowerPlace "--namespace-pkg " "" lower]

/-- The content of a file with the prefix in place of all upper-case and the
    prefix in lower case in place of all lower-case placeholders. -/
def instantiated (templatePrefix : Identifier) (content : List UInt8) : List UInt8 :=
  fill (placeholders templatePrefix.chars templatePrefix.lower templatePrefix.lower) content

end Qdmi
