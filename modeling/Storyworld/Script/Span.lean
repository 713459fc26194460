/-! Places in a script, counted in bytes of its UTF-8 form. -/

namespace Storyworld.Script

/-- The bytes from `start` up to but not including `stop`. -/
structure Span where
  start : Nat
  stop : Nat
  deriving DecidableEq

def byteSize (cs : List Char) : Nat :=
  cs.foldr (fun c size => c.utf8Size + size) 0

@[simp] theorem byteSize_nil : byteSize [] = 0 := rfl

@[simp] theorem byteSize_cons (c : Char) (cs : List Char) :
    byteSize (c :: cs) = c.utf8Size + byteSize cs := rfl

@[simp] theorem byteSize_append (as bs : List Char) :
    byteSize (as ++ bs) = byteSize as + byteSize bs := by
  induction as with
  | nil => simp
  | cons c as ih => simp [ih, Nat.add_assoc]

def spanFrom (start : Nat) (cs : List Char) : Span :=
  ⟨start, start + byteSize cs⟩

/-- The characters from one byte of a text on, if a character begins there. -/
def fromByte? : Nat → List Char → Option (List Char)
  | 0, cs => some cs
  | _ + 1, [] => none
  | n + 1, c :: cs => if c.utf8Size ≤ n + 1 then fromByte? (n + 1 - c.utf8Size) cs else none

/-- What follows a text is found at the byte where the text ends. -/
theorem fromByte?_byteSize (as bs : List Char) : fromByte? (byteSize as) (as ++ bs) = some bs := by
  induction as with
  | nil => simp [fromByte?]
  | cons c cs ih =>
    obtain ⟨n, hn⟩ : ∃ n, c.utf8Size + byteSize cs = n + 1 :=
      Nat.exists_eq_add_one_of_ne_zero (by have := c.utf8Size_pos; omega)
    have hle : c.utf8Size ≤ n + 1 := by omega
    have hrest : n + 1 - c.utf8Size = byteSize cs := by omega
    simp only [byteSize_cons, hn, List.cons_append, fromByte?, hle, if_true, hrest, ih]

structure Spanned (τ : Type) where
  token : τ
  span : Span

end Storyworld.Script
