import Mathlib.Data.List.DropRight
import Mathlib.Data.List.TakeWhile

/-!
# Lines of octets

A text cut after each newline. The content of a line is what stands before its end, a newline with
or without a carriage return.
-/

namespace OctoMail.TextLines

abbrev Bytes := List UInt8

def lf : UInt8 := 10

def cr : UInt8 := 13

/-- The lines of a text, each with its end; the last one may have none. -/
def cutLines : Bytes → List Bytes
  | [] => []
  | c :: rest =>
      if c = lf then [c] :: cutLines rest
      else
        match cutLines rest with
        | [] => [[c]]
        | line :: lines => (c :: line) :: lines

/-- A line without its end. -/
def content (line : Bytes) : Bytes :=
  if line.getLast? = some lf then
    if line.dropLast.getLast? = some cr then line.dropLast.dropLast else line.dropLast
  else line

/-- A blank or a tab. -/
def blank (c : UInt8) : Bool := c == 32 || c == 9

def startsBlank (line : Bytes) : Bool := line.head?.any blank

/-- A line without the blanks at its ends. -/
def trim (line : Bytes) : Bytes := (line.dropWhile blank).rdropWhile blank

theorem mem_dropWhile_of_neg {test : UInt8 → Bool} {c : UInt8} {text : Bytes} (member : c ∈ text)
    (kept : test c = false) : c ∈ text.dropWhile test := by
  rw [← @List.takeWhile_append_dropWhile _ test text, List.mem_append] at member
  rcases member with front | rest
  · rw [List.mem_takeWhile_imp front] at kept
    cases kept
  · exact rest

/-- Trimming takes blanks only. -/
theorem mem_trim {c : UInt8} {line : Bytes} (member : c ∈ line) (kept : blank c = false) :
    c ∈ trim line := by
  rw [trim, List.rdropWhile, List.mem_reverse]
  exact mem_dropWhile_of_neg (List.mem_reverse.mpr (mem_dropWhile_of_neg member kept)) kept

end OctoMail.TextLines
