import EventSeries.Text.Blank

/-
  This file makes slugs, the short texts by which an event is
  addressed.  A slug keeps the ASCII letters and digits of a
  title, in lower case, and turns runs of blanks, hyphens and
  underscores into one hyphen; all else is dropped.

  Key definitions include:
    * `slugLimit`
    * `collapse`
    * `slugify`
-/

namespace EventSeries

/- Largest number of characters of a slug. -/
def slugLimit : Nat :=
  220

/- Blanks, hyphens and underscores separate words. -/
def isWordSeparator
    (c : Char) : Bool :=
  isBlank c || c == '-' || c == '_'

/-
  Letters and digits in lower case, with a hyphen for each
  run of separators.  `afterHyphen` tells whether the last
  character written was a hyphen.
-/
def collapse :
    Bool → List Char → List Char
  | _, [] => []
  | afterHyphen, c :: cs =>
      if c.isAlphanum then
        c.toLower :: collapse false cs
      else if isWordSeparator c then
        if afterHyphen then
          collapse true cs
        else
          '-' :: collapse true cs
      else
        collapse afterHyphen cs

/- Text without its leading hyphens. -/
def dropHyphens
    (cs : List Char) : List Char :=
  cs.dropWhile (· == '-')

/- Text without hyphens at either end. -/
def trimHyphens
    (cs : List Char) : List Char :=
  (dropHyphens (dropHyphens cs).reverse).reverse

/- The characters of the slug of a text. -/
def slugChars
    (cs : List Char) : List Char :=
  (trimHyphens (collapse false cs)).take slugLimit

/- The slug of a text. -/
def slugify
    (text : String) : String :=
  String.ofList (slugChars text.toList)

end EventSeries
