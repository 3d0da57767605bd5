import ExprLang.Text.Utf8

/-!
# Lines of a byte stream

A line reaches up to and with the next newline byte; the last line may lack it.

* `first`, `rest` — the first line of a stream, its end included, and what follows it.
* `split` — all lines of a stream.
* `chomp` — the text of a line without its end, which is a newline or a carriage return and a
  newline.  A carriage return that no newline follows belongs to the text.

Principal results: `first_append_rest`, `split_of_ne_nil` — the lines are the stream, cut behind
each newline and nowhere else.
-/

set_option autoImplicit false

namespace ExprLang.Line

def newline : UInt8 := 10

def first (bytes : List UInt8) : List UInt8 :=
  bytes.takeWhile (· != newline) ++ (bytes.dropWhile (· != newline)).take 1

def rest (bytes : List UInt8) : List UInt8 :=
  (bytes.dropWhile (· != newline)).drop 1

def split : List UInt8 → List (List UInt8)
  | [] => []
  | b :: bytes =>
    if b = newline then [b] :: split bytes
    else match split bytes with
      | [] => [[b]]
      | line :: lines => (b :: line) :: lines

def chompChars (cs : List Char) : List Char :=
  if cs.getLast? = some '\n' then
    let text := cs.dropLast
    if text.getLast? = some '\r' then text.dropLast else text
  else cs

def chomp (line : String) : String := String.ofList (chompChars line.toList)

/-! ## Laws -/

theorem first_append_rest (bytes : List UInt8) : first bytes ++ rest bytes = bytes := by
  rw [first, rest, List.append_assoc, List.take_append_drop, List.takeWhile_append_dropWhile]

theorem split_of_ne_nil {bytes : List UInt8} (h : bytes ≠ []) :
    split bytes = first bytes :: split (rest bytes) := by
  induction bytes with
  | nil => exact absurd rfl h
  | cons b bytes ih =>
    by_cases hb : b = newline
    · simp [split, first, rest, hb]
    · cases bytes with
      | nil => simp [split, first, rest, hb]
      | cons c bytes =>
        have := ih (by simp)
        rw [split, if_neg hb, this]
        simp [first, rest, hb]

theorem flatten_split (bytes : List UInt8) : (split bytes).flatten = bytes := by
  induction bytes with
  | nil => rfl
  | cons b bytes ih =>
    rw [split]
    split
    · simp [ih]
    · split <;> rename_i heq <;> rw [heq] at ih
      · simp at ih; simp [← ih]
      · simpa using ih

/-- A text has the newline byte where it has the newline character and nowhere else. -/
theorem newline_mem_encode_iff {s : String} : newline ∈ Utf8.encode s ↔ '\n' ∈ s.toList := by
  have hbyte : newline.toNat = '\n'.toNat := rfl
  rw [Utf8.mem_encode_iff (by decide), hbyte]
  simp only [Char.toNat_inj, exists_eq_right]

end ExprLang.Line
