import Storyworld.Proofs.Script.Composition
import Storyworld.Script.Bytes

/-! # Places in a source

What can be cut out of a source is a part of it, at the place behind what stands before it
(`slice?_eq_some_iff`), and what is left of a source begins where the part before it ends
(`Cursor.place_behind`). A reader by bytes whose cuts can all be made comes to a result of its own
(`Bytewise.of`).
-/

namespace Storyworld.Script

variable {α β : Type}

/-! ## Places and cuts -/

theorem uptoByte?_byteSize (as bs : List Char) : uptoByte? (byteSize as) (as ++ bs) = some as := by
  induction as with
  | nil => simp [uptoByte?]
  | cons c cs ih =>
    obtain ⟨n, hn⟩ : ∃ n, c.utf8Size + byteSize cs = n + 1 :=
      Nat.exists_eq_add_one_of_ne_zero (by have := c.utf8Size_pos; omega)
    have hle : c.utf8Size ≤ n + 1 := by omega
    have hrest : n + 1 - c.utf8Size = byteSize cs := by omega
    simp only [byteSize_cons, hn, List.cons_append, uptoByte?, hle, if_true, hrest, ih,
      Option.map_some]

theorem uptoByte?_eq_some {n : Nat} {cs as : List Char} (h : uptoByte? n cs = some as) :
    ∃ bs, cs = as ++ bs ∧ n = byteSize as := by
  induction cs generalizing n as with
  | nil =>
    cases n with
    | zero =>
      cases h
      exact ⟨[], rfl, rfl⟩
    | succ n => cases h
  | cons c cs ih =>
    cases n with
    | zero =>
      cases h
      exact ⟨c :: cs, rfl, rfl⟩
    | succ n =>
      rw [uptoByte?] at h
      split at h
      · obtain ⟨as', has, rfl⟩ := Option.map_eq_some_iff.mp h
        obtain ⟨bs, rfl, hsize⟩ := ih has
        refine ⟨bs, rfl, ?_⟩
        rw [byteSize_cons]
        omega
      · cases h

theorem fromByte?_eq_some {n : Nat} {cs bs : List Char} (h : fromByte? n cs = some bs) :
    ∃ as, cs = as ++ bs ∧ n = byteSize as := by
  induction cs generalizing n with
  | nil =>
    cases n with
    | zero =>
      cases h
      exact ⟨[], rfl, rfl⟩
    | succ n => cases h
  | cons c cs ih =>
    cases n with
    | zero =>
      cases h
      exact ⟨[], rfl, rfl⟩
    | succ n =>
      rw [fromByte?] at h
      split at h
      · obtain ⟨as, rfl, hsize⟩ := ih h
        refine ⟨c :: as, rfl, ?_⟩
        rw [byteSize_cons]
        omega
      · cases h

/-- **What can be cut out** of a text is a part of it, at the place behind what stands before it. -/
theorem slice?_eq_some_iff {cs text : List Char} {s : Span} : slice? cs s = some text ↔
    ∃ before after, cs = before ++ text ++ after ∧ s = spanFrom (byteSize before) text := by
  obtain ⟨start, stop⟩ := s
  constructor
  · intro h
    unfold slice? at h
    split at h
    · cases h
    · obtain ⟨rest, hfrom, hupto⟩ := Option.bind_eq_some_iff.mp h
      obtain ⟨before, rfl, hstart⟩ := fromByte?_eq_some hfrom
      obtain ⟨after, rfl, hsize⟩ := uptoByte?_eq_some hupto
      refine ⟨before, after, (List.append_assoc ..).symm, ?_⟩
      simp only [spanFrom, Span.mk.injEq]
      dsimp only at *
      omega
  · rintro ⟨before, after, rfl, hs⟩
    obtain ⟨rfl, rfl⟩ := Span.mk.inj hs
    rw [slice?, if_neg (by dsimp only; omega), Nat.add_sub_cancel_left, List.append_assoc,
      fromByte?_byteSize, Option.bind_some, uptoByte?_byteSize]

theorem byteSize_sub {word rest cs : List Char} (h : word ++ rest = cs) :
    byteSize cs - byteSize rest = byteSize word := by
  rw [← h, byteSize_append, Nat.add_sub_cancel_right]

theorem cut_eq {cs text : List Char} {start stop : Nat} (before after : List Char)
    (hcs : cs = before ++ text ++ after) (hstart : start = byteSize before)
    (hstop : stop = byteSize before + byteSize text) : cut cs start stop = pure text := by
  have hslice : slice? cs ⟨start, stop⟩ = some text := by
    subst hstart hstop
    exact slice?_eq_some_iff.mpr ⟨before, after, hcs, rfl⟩
  rw [cut, hslice]
  rfl

/-! ## Results of cuts that can be made -/

namespace Bytewise

theorem of_ok_bind (a : α) (f : α → Bytewise β) : (of (.ok a) >>= f) = f a := rfl

theorem of_bind {r : Except ScriptError α} {f : α → Bytewise β} {g : α → Except ScriptError β}
    (h : ∀ a, f a = of (g a)) : (of r >>= f) = of (r >>= g) := by
  cases r with
  | error e => rfl
  | ok a => exact h a

theorem of_bind_pure (r : Except ScriptError α) (f : α → β) :
    (of r >>= fun a => pure (f a)) = of (r.map f) := by
  cases r <;> rfl

theorem mapM_of {f : α → Bytewise β} {g : α → Except ScriptError β} (h : ∀ a, f a = of (g a))
    (xs : List α) : xs.mapM f = of (xs.mapM g) := by
  induction xs with
  | nil => rfl
  | cons x xs ih =>
    rw [List.mapM_cons, List.mapM_cons, h, ih]
    exact of_bind fun y => of_bind fun ys => rfl

theorem adapt_of (f : ScriptError → ScriptError) (r : Except ScriptError α) :
    (of r).adapt f = of (r.mapError f) := by
  cases r <;> rfl

end Bytewise

open Bytewise

/-! ## What is left of a source -/

namespace Cursor

theorem chars_ofText (start : Nat) (cs : List Char) : (ofText start cs).chars = cs := by
  induction cs generalizing start with
  | nil => rfl
  | cons c cs ih => exact congrArg (c :: ·) (ih _)

theorem chars_cons (start : Nat) (c : Char) (cursor : Cursor) :
    Cursor.chars ((start, c) :: cursor) = c :: cursor.chars := rfl

theorem next?_ofText (start : Nat) (cs : List Char) : (ofText start cs).next? = cs.head? := by
  rw [next?, chars_ofText]

theorem place_ofText (start : Nat) (cs : List Char) :
    (ofText start cs).place (start + byteSize cs) = start := by
  cases cs <;> rfl

theorem drop_ofText (start n : Nat) (cs : List Char) :
    (ofText start cs).drop n = ofText (start + byteSize (cs.take n)) (cs.drop n) := by
  induction n generalizing start cs with
  | zero => simp
  | succ n ih =>
    cases cs with
    | nil => rfl
    | cons c cs =>
      rw [ofText, List.drop_succ_cons, ih, List.take_succ_cons, List.drop_succ_cons, byteSize_cons,
        Nat.add_assoc]

/-- What is left behind the front of a text. -/
theorem drop_ofText_append (start : Nat) (as bs : List Char) :
    (ofText start (as ++ bs)).drop as.length = ofText (start + byteSize as) bs := by
  rw [drop_ofText, List.take_left, List.drop_left]

/-- What is left behind a part of a source begins where the part ends. -/
theorem place_behind (before word rest : List Char) :
    (ofText (byteSize before + byteSize word) rest).place (byteSize (before ++ (word ++ rest))) =
      byteSize before + byteSize word := by
  rw [byteSize_append, byteSize_append, ← Nat.add_assoc, place_ofText]

/-- A source is taken to where skipping ends. -/
theorem taken_eq {p : Cursor → Bool} {before word rest cs : List Char} (hcs : word ++ rest = cs)
    (hskip : (ofText (byteSize before) cs).skip p =
      (ofText (byteSize before) cs).drop word.length) :
    taken (before ++ cs) p (ofText (byteSize before) cs) =
      pure (word, ofText (byteSize before + byteSize word) rest) := by
  subst hcs
  have hstart := place_behind before [] (word ++ rest)
  rw [byteSize_nil, Nat.add_zero, List.nil_append] at hstart
  unfold taken
  dsimp only
  rw [hskip, drop_ofText_append, place_behind, hstart, cut_eq _ _ (List.append_assoc ..).symm rfl rfl]
  rfl

end Cursor

end Storyworld.Script
