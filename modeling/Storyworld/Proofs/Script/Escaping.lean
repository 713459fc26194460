import Storyworld.Proofs.Script.Composition

/-! # Any text can be stored

With a backslash in front of every backslash and every quote, a text between quotes is read as it was:
where a script is cut into clauses, where a clause is cut at its equals sign, and where the literal is
scanned (`Quoted.escape`). So the clause that sets a variable to it does so, alone and in every script
that can be read (`stores_any_text`).
-/

namespace Storyworld

/-! ## Names for variables -/

/-- No entity but a variable has the id. -/
def World.IsFree (w : World) (id : String) : Prop :=
  ∀ e, w.find? id = some e → e.kind = .variable

namespace World.IsFree

variable {w w' : World} {id : String}

theorem step (h : w.IsFree id) (hstep : w.Step w') : w'.IsFree id := by
  intro e he
  cases hstep with
  | @create other v named fresh =>
    by_cases hid : id = other
    · subst hid
      rw [find?_addVariable_self fresh] at he
      cases he
      rfl
    · rw [find?_addVariable_of_ne hid] at he
      exact h e he
  | revise found hrev =>
    rw [find?_replace] at he
    obtain ⟨x, hx, rfl⟩ := Option.map_eq_some_iff.mp he
    have hkind := h x hx
    split
    · rename_i hsame
      rw [← hsame.1, hkind]
    · exact hkind

/-- Writes make no entities but variables. -/
theorem evolves (h : w.IsFree id) (hevolves : w.Evolves w') : w'.IsFree id :=
  hevolves.keeps (P := (IsFree · id)) (fun hstep hfree => hfree.step hstep) h

/-- What may name a variable can be written, and names a variable of that value then. -/
theorem set (h : w.IsFree id) (hpath : Path.ofText? id = some ⟨id, []⟩) (v : Value) :
    ∃ x w', Store.set id v w = (.ok (), w') ∧ w'.variableNamed? id = some x ∧ x.value = v := by
  cases hfind : w.find? id with
  | none =>
    have hset : Store.set id v w = (.ok (), w.addVariable id v) := by
      rw [Store.set, run_lift_bind, path_eq_ok_iff.mpr hpath]
      simp only [run_get_bind, hfind]
      rfl
    exact ⟨_, _, hset, variableNamed?_of_find? (find?_addVariable_self hfind v), rfl⟩
  | some e =>
    cases e with
    | «variable» x =>
      have hset := Store.set_of_variable hpath rfl hfind v
      exact ⟨_, _, hset, variableNamed?_of_find? (find?_replace_self hfind rfl rfl), rfl⟩
    | _ => cases h _ hfind

end World.IsFree

namespace Script

open Condition (isDelimiter isQuote)

/-! ## Texts between quotes -/

/-- A text with a backslash in front of every backslash and every quote. -/
def escape (quote : Char) (text : List Char) : List Char :=
  text.flatMap fun c => if c = '\\' ∨ c = quote then ['\\', c] else [c]

/-- What was escaped is read as it was. -/
theorem Quoted.escape (quote : Char) (text : List Char) :
    Quoted quote (Script.escape quote text) text := by
  induction text with
  | nil => exact .nil
  | cons c text ih =>
    rw [Script.escape, List.flatMap_cons]
    split
    · exact .escaped c ih
    · rename_i hplain
      obtain ⟨hescape, hquote⟩ := not_or.mp hplain
      exact .plain hescape hquote ih

/-- The clause that sets a variable to a text. -/
def storing (x : String) (quote : Char) (t : String) : String :=
  equation x (quote :: escape quote t.toList ++ [quote])

/-! ## Identifiers -/

namespace Expression

/-- A token that is a name is the identifier that its source starts with. -/
theorem nameRun_of_token {start : Nat} {c : Char} {cs rest : List Char} {x : String}
    (h : token start c cs = .ok (.name x, rest)) :
    startsName c = true ∧ x.toList = nameRun (c :: cs) ∧
      rest = (c :: cs).drop (nameRun (c :: cs)).length := by
  unfold token at h
  split at h
  · rename_i t hsymbol
    cases h
    revert hsymbol
    unfold symbol?
    split <;> nofun
  split at h
  · split at h <;> cases h
  split at h
  · dsimp only at h
    split at h <;> cases h
  split at h
  · rename_i hname
    obtain ⟨htoken, hrest⟩ := Prod.mk.inj (Except.ok.inj h)
    refine ⟨hname, ?_, hrest.symm⟩
    rw [nameToken] at htoken
    split at htoken
    · cases htoken
    split at htoken
    · cases htoken
    · cases htoken
      exact String.toList_ofList
  · cases h

theorem continuesName_of_mem_nameRun {cs : List Char} {c : Char} (h : c ∈ nameRun cs) :
    ∃ rest, continuesName (c :: rest) = true := by
  induction cs with
  | nil => cases h
  | cons d cs ih =>
    rw [nameRun] at h
    split at h
    · obtain rfl | h := List.mem_cons.mp h
      · exact ⟨cs, ‹_›⟩
      · exact ih h
    · cases h

/-- A name among the tokens of a source is not empty, and all of it continues a name. -/
theorem Scans.name {start : Nat} {cs : List Char} {tokens : List (Spanned Token)}
    (h : Scans start cs tokens) {x : String} {span : Span} (hx : ⟨.name x, span⟩ ∈ tokens) :
    x.toList ≠ [] ∧ ∀ c ∈ x.toList, ∃ rest, continuesName (c :: rest) = true := by
  induction h with
  | nil => cases hx
  | blank _ _ ih => exact ih hx
  | @token _ c word rest _ _ hblank read _ ih =>
    obtain heq | hx := List.mem_cons.mp hx
    · cases heq
      obtain ⟨hstarts, hrun, -⟩ := nameRun_of_token read
      rw [hrun]
      refine ⟨?_, fun d hd => continuesName_of_mem_nameRun hd⟩
      rw [nameRun, if_pos (continuesName_of_startsName hstarts (word ++ rest))]
      exact List.cons_ne_nil _ _
    · exact ih hx

end Expression

/-- What scans as one identifier, and has no colon in it, is a name in both languages. -/
theorem isName_of_scan {x : String} {start : Nat} {span : Span}
    (scanned : Expression.scan start x.toList = .ok [⟨.name x, span⟩])
    (bare : ':' ∉ x.toList) : IsName x := by
  obtain ⟨hne, hchars⟩ := (Expression.scan_eq_ok_iff.mp scanned).name List.mem_cons_self
  have hother {c d : Char} (hc : c ∈ x.toList)
      (hd : ∀ rest, Expression.continuesName (d :: rest) = false) : c ≠ d := by
    rintro rfl
    obtain ⟨rest, hrest⟩ := hchars c hc
    simp [hd] at hrest
  have hblank {c : Char} (hc : c ∈ x.toList) : Text.isBlank c = false := by
    rw [← Bool.not_eq_true]
    intro hblank
    obtain ⟨rest, hrest⟩ := hchars c hc
    rw [Expression.continuesName_of_isBlank hblank] at hrest
    cases hrest
  have hcolon {c : Char} (hc : c ∈ x.toList) : c ≠ ':' := by
    rintro rfl
    exact bare hc
  refine ⟨fun hempty => hne (by rw [hempty]; rfl), fun c hc => ?_, fun hstart => ?_⟩
  · simp [isNameChar, isDelimiter, isQuote, hblank hc, hcolon hc, hother hc (d := '(') (fun _ => rfl),
      hother hc (d := ')') (fun _ => rfl), hother hc (d := '&') (fun _ => rfl),
      hother hc (d := '|') (fun _ => rfl), hother hc (d := '"') (fun _ => rfl),
      hother hc (d := '\'') (fun _ => rfl), hother hc (d := ';') (fun _ => rfl),
      hother hc (d := '=') (fun _ => rfl), hother hc (d := '<') (fun _ => rfl),
      hother hc (d := '>') (fun _ => rfl)]
  · exact hother (List.mem_of_mem_head? hstart) (fun _ => rfl) (Eq.refl '!')

/-! ## Clauses that store a text -/

namespace Assignment

variable {w : World} {x : String}

/-- A clause that writes below another root leaves a variable alone. -/
theorem perform_elsewhere {a : Assignment}
    (h : ∀ p, Path.ofText? a.target = some p → p.root ≠ x) (w : World) :
    (a.perform w).2.variableNamed? x = w.variableNamed? x := by
  obtain ⟨_, -, hperform⟩ | ⟨v, -, hperform⟩ := a.perform_cases w
  · rw [hperform]
  · rw [hperform]
    exact Store.variableNamed?_set h

/-- So do clauses of which each does. -/
theorem performAll_elsewhere {as : List Assignment}
    (h : ∀ a ∈ as, ∀ p, Path.ofText? a.target = some p → p.root ≠ x) (w : World) :
    (performAll as w).2.variableNamed? x = w.variableNamed? x := by
  induction as generalizing w with
  | nil => rfl
  | cons a as ih =>
    obtain ⟨hfirst, hrest⟩ := List.forall_mem_cons.mp h
    have hperform := perform_elsewhere hfirst w
    rw [performAll, run_bind]
    rcases hrun : a.perform w with ⟨r, w'⟩
    rw [hrun] at hperform
    cases r with
    | error e => exact hperform
    | ok u => exact (ih hrest w').trans hperform

/-- What may name a variable is set to the text. -/
theorem perform_storing (hname : IsName x) (hfree : w.IsFree x) (t : String) (span : Span) :
    ∃ y w', perform ⟨x, .ofValue (.text t), span⟩ w = (.ok (), w') ∧
      w'.variableNamed? x = some y ∧ y.value = .text t := by
  obtain ⟨y, w', hset, hy, hvalue⟩ := hfree.set hname.path (.text t)
  exact ⟨y, w', perform_ofValue hset span, hy, hvalue⟩

section

variable {as : List Assignment} {w₁ : World} (hname : IsName x) (hfree : w.IsFree x)
  (hbefore : performAll as w = (.ok (), w₁)) (t : String) (span : Span)

include hname hfree hbefore

/-- Behind clauses that succeed, so does the clause, and what follows begins with the text in the
variable. -/
theorem exists_performAll_storing : ∃ y w', w'.variableNamed? x = some y ∧ y.value = .text t ∧
    ∀ bs, performAll (as ++ ⟨x, .ofValue (.text t), span⟩ :: bs) w = performAll bs w' := by
  have hfree₁ : w₁.IsFree x := by
    have hwrites := performAll_writes as w
    rw [Change.Writes, hbefore] at hwrites
    exact hfree.evolves hwrites
  obtain ⟨y, w', hperform, hy, hvalue⟩ := perform_storing hname hfree₁ t span
  refine ⟨y, w', hy, hvalue, fun bs => ?_⟩
  rw [performAll_append, run_bind, hbefore]
  change performAll (_ :: bs) w₁ = _
  rw [performAll, run_bind, hperform]

theorem performAll_storing : ∃ w',
    performAll (as ++ [⟨x, .ofValue (.text t), span⟩]) w = (.ok (), w') ∧
      w'.lookup x = .ok (.text t) := by
  obtain ⟨y, w', hy, hvalue, hrun⟩ := exists_performAll_storing hname hfree hbefore t span
  exact ⟨w', hrun [], hvalue ▸ World.lookup_bare hname.path rfl hy⟩

/-- The variable keeps the text while clauses write elsewhere. -/
theorem lookup_performAll_storing {bs : List Assignment}
    (h : ∀ b ∈ bs, ∀ p, Path.ofText? b.target = some p → p.root ≠ x) :
    (performAll (as ++ ⟨x, .ofValue (.text t), span⟩ :: bs) w).2.lookup x = .ok (.text t) := by
  obtain ⟨y, w', hy, hvalue, hrun⟩ := exists_performAll_storing hname hfree hbefore t span
  have hafter := performAll_elsewhere h w'
  rw [hy] at hafter
  rw [hrun]
  exact hvalue ▸ World.lookup_bare hname.path rfl hafter

end

end Assignment

/-- At the end of other scripts, a script of one clause is one clause more. -/
theorem parseAssignments_last {before : List String} {as : List Assignment}
    (hbefore : parseAssignments (";".intercalate before) = .ok as) {s x : String} {e : Expression}
    {span : Span} (hs : parseAssignments s = .ok [⟨x, e, span⟩]) (hliteral : ∀ n, e.shift n = e) :
    ∃ place, parseAssignments (";".intercalate (before ++ [s])) = .ok (as ++ [⟨x, e, place⟩]) := by
  have hsingle : parseAssignments (";".intercalate [s]) = .ok [⟨x, e, span⟩] := by
    rwa [String.intercalate_singleton]
  cases before with
  | nil =>
    cases hbefore
    exact ⟨_, hsingle⟩
  | cons first before =>
    have hjoined := parseAssignments_append (List.cons_ne_nil first before) hbefore hsingle
    rw [List.map_singleton, Assignment.shift, hliteral] at hjoined
    exact ⟨_, hjoined⟩

/-- **Any text can be stored**, between quotes of either kind, with a backslash in front of every
backslash and every such quote, in a variable whose name scans as one identifier. Alone, what stores
it is one clause. So it is among other scripts that can be read, with a semicolon between each two:
where the clauses in front succeed it succeeds too, and the text is read from the variable then, and
at the end, if no clause behind it writes to the variable. -/
theorem stores_any_text {x : String} {span : Span}
    (scanned : Expression.scan 0 x.toList = .ok [⟨.name x, span⟩]) (bare : ':' ∉ x.toList)
    {quote : Char} (hquote : isQuote quote = true) (t : String) :
    (∃ clause, parseAssignments (storing x quote t) = .ok [clause] ∧
      ∀ w : World, w.IsFree x → ∃ w', Assignment.performAll [clause] w = (.ok (), w') ∧
        w'.lookup x = .ok (.text t)) ∧
    ∀ before after : List String, (∀ s ∈ before, ∃ as, parseAssignments s = .ok as) →
      (∀ s ∈ after, ∃ bs, parseAssignments s = .ok bs) → ∃ as clause bs n,
        parseAssignments (";".intercalate before) = .ok as ∧
        parseAssignments (";".intercalate after) = .ok bs ∧
        parseAssignments (";".intercalate (before ++ storing x quote t :: after)) =
          .ok (as ++ clause :: bs.map (Assignment.shift n)) ∧
        ∀ w w₁ : World, w.IsFree x → Assignment.performAll as w = (.ok (), w₁) →
          (∃ w', Assignment.performAll (as ++ [clause]) w = (.ok (), w') ∧
            w'.lookup x = .ok (.text t)) ∧
          ((∀ b ∈ bs, ∀ p, Path.ofText? b.target = some p → p.root ≠ x) →
            (Assignment.performAll (as ++ clause :: bs.map (Assignment.shift n)) w).2.lookup x =
              .ok (.text t)) := by
  have hname := isName_of_scan scanned bare
  obtain ⟨place, hsingle⟩ :=
    parseAssignments_equation hname hquote (Quoted.escape quote t.toList)
  rw [String.ofList_toList] at hsingle
  refine ⟨⟨_, hsingle, fun w hfree => ?_⟩, fun before after hbefore hafter => ?_⟩
  · have hrun : Assignment.performAll [] w = (.ok (), w) := rfl
    exact Assignment.performAll_storing hname hfree hrun t place
  · obtain ⟨as, has⟩ := exists_parseAssignments hbefore
    obtain ⟨bs, hbs⟩ := exists_parseAssignments hafter
    obtain ⟨place', hlast⟩ := parseAssignments_last has hsingle fun _ => rfl
    have hwhole := parseAssignments_append (by simp) hlast hbs
    rw [List.append_assoc, List.append_assoc] at hwhole
    refine ⟨as, _, bs, _, has, hbs, hwhole, fun w w₁ hfree hrun => ?_⟩
    exact ⟨Assignment.performAll_storing hname hfree hrun t place', fun hapart =>
      Assignment.lookup_performAll_storing hname hfree hrun t place'
        (List.forall_mem_map.mpr hapart)⟩

/-- A text of everything that a script has a meaning for, between two other clauses. -/
theorem stores_any_text_lampRoom :
    let t := "a\"; x = 'b\\\n"
    let source := "y = 'c;';x = \"a\\\"; x = 'b\\\\\n\";z = x"
    World.load (lampRoom "") = .ok (lampRoom "").world ∧ (lampRoom "").world.IsFree "x" ∧
      Expression.scan 0 "x".toList = .ok [⟨.name "x", ⟨0, 1⟩⟩] ∧ ':' ∉ "x".toList ∧
      ∃ first second third, parseAssignments source = .ok [first, second, third] ∧
        (Assignment.performAll [first, second, third] (lampRoom "").world).2.lookup "x" =
          .ok (.text t) := by
  intro t source
  have hfree (id : String) (h : (lampRoom "").world.find? id = none) :
      (lampRoom "").world.IsFree id := fun e he => by simp [h] at he
  have scanned : Expression.scan 0 "x".toList = .ok [⟨.name "x", ⟨0, 1⟩⟩] := rfl
  have hfirst : parseAssignments "y = 'c;'" = .ok [⟨"y", .ofValue (.text "c;"), ⟨0, 8⟩⟩] := rfl
  have hthird : parseAssignments "z = x" =
    .ok [⟨"z", ⟨[.operand (.name "x" ⟨4, 5⟩)]⟩, ⟨0, 5⟩⟩] := rfl
  obtain ⟨-, hamong⟩ := stores_any_text scanned (by decide) (by decide : isQuote '"' = true) t
  obtain ⟨as, clause, bs, n, has, hbs, hwhole, hstores⟩ := hamong ["y = 'c;'"] ["z = x"]
    (List.forall_mem_singleton.mpr ⟨_, hfirst⟩) (List.forall_mem_singleton.mpr ⟨_, hthird⟩)
  have hsource : ";".intercalate (["y = 'c;'"] ++ storing "x" '"' t :: ["z = x"]) = source := by
    decide +kernel
  rw [hsource] at hwhole
  rw [String.intercalate_singleton, hfirst] at has
  rw [String.intercalate_singleton, hthird] at hbs
  cases has
  cases hbs
  have scanned' : Expression.scan 0 "y".toList = .ok [⟨.name "y", ⟨0, 1⟩⟩] := rfl
  obtain ⟨-, w₁, hperform, -⟩ := Assignment.perform_storing
    (isName_of_scan scanned' (by decide)) (hfree "y" rfl) "c;" ⟨0, 8⟩
  have hrun : Assignment.performAll [⟨"y", .ofValue (.text "c;"), ⟨0, 8⟩⟩] (lampRoom "").world =
      (.ok (), w₁) := by
    rw [Assignment.performAll, run_bind, hperform]
    rfl
  obtain ⟨-, hstays⟩ := hstores _ _ (hfree "x" rfl) hrun
  refine ⟨rfl, hfree "x" rfl, scanned, by decide, _, _, _, hwhole, hstays ?_⟩
  refine List.forall_mem_singleton.mpr fun p hp => ?_
  cases hp
  decide

end Script

end Storyworld
