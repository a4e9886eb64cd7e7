/-
# Words and white space

Blank characters are those with the Unicode property `White_Space`, twenty-five in
all. A line of a console and the text of a request are read as their `words`, the
maximal runs of characters that are not blank; a reply is read without the blanks
at its end (`trimEnd`).
-/

namespace Cashpoint
namespace Text

/-- The code points with the property `White_Space`. -/
def blankCodePoints : List Nat :=
  [0x09, 0x0A, 0x0B, 0x0C, 0x0D, 0x20, 0x85, 0xA0, 0x1680, 0x2000, 0x2001, 0x2002, 0x2003, 0x2004,
    0x2005, 0x2006, 0x2007, 0x2008, 0x2009, 0x200A, 0x2028, 0x2029, 0x202F, 0x205F, 0x3000]

/-- Whether a character has the property `White_Space`. -/
def isBlank (c : Char) : Bool := blankCodePoints.contains c.toNat

/-- The maximal runs of characters that are not blank, in order. -/
def words (text : String) : List String :=
  ((text.toList.splitOnP isBlank).filter (fun run => !run.isEmpty)).map String.ofList

/-- The text without the blanks at its end. -/
def trimEnd (text : String) : String :=
  String.ofList (text.toList.reverse.dropWhile isBlank).reverse

/-- A blank text has no words. -/
theorem words_of_blank {text : String} (h : text.toList.all isBlank = true) : words text = [] := by
  have aux : ∀ cs : List Char, cs.all isBlank = true →
      (cs.splitOnP isBlank).filter (fun run => !run.isEmpty) = [] := by
    intro cs
    induction cs with
    | nil => intro _; simp
    | cons c cs ih =>
      intro hc
      simp only [List.all_cons, Bool.and_eq_true] at hc
      simp [List.splitOnP_cons_eq_if_modifyHead, hc.1, ih hc.2]
  simp [words, aux _ h]

end Text
end Cashpoint
