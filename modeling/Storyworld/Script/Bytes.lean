import Storyworld.Proofs.Script.Displacement

/-! Scripts as they are read by bytes. Places are counted, and what stands between two of them is cut
out of the source; a cut that ends before it begins or beyond the source, or that goes through a
character, stops a reader for good. -/

namespace Storyworld.Script

/-- The characters before a byte of a text, if one ends there. -/
def uptoByte? : Nat → List Char → Option (List Char)
  | 0, _ => some []
  | _ + 1, [] => none
  | n + 1, c :: cs =>
    if c.utf8Size ≤ n + 1 then (uptoByte? (n + 1 - c.utf8Size) cs).map (c :: ·) else none

/-- What stands at a place of a text, if the place can be cut out. -/
def slice? (cs : List Char) (s : Span) : Option (List Char) :=
  if s.stop < s.start then none
  else (fromByte? s.start cs).bind (uptoByte? (s.stop - s.start))

/-- Reading by bytes. Without a result, a cut was made where there can be none. -/
abbrev Bytewise := ExceptT ScriptError Option

def Bytewise.of {α : Type} (r : Except ScriptError α) : Bytewise α :=
  ExceptT.mk (some r)

def cut (cs : List Char) (start stop : Nat) : Bytewise (List Char) :=
  ExceptT.lift (slice? cs ⟨start, stop⟩)

/-- What is left of a source: characters, each with the byte at which it begins. -/
abbrev Cursor := List (Nat × Char)

def Cursor.ofText : Nat → List Char → Cursor
  | _, [] => []
  | start, c :: cs => (start, c) :: ofText (start + c.utf8Size) cs

namespace Cursor

def chars (cursor : Cursor) : List Char :=
  cursor.map Prod.snd

def next? (cursor : Cursor) : Option Char :=
  cursor.chars.head?

/-- The byte at which what is left begins, in a source of the given size. -/
def place (size : Nat) : Cursor → Nat
  | [] => size
  | (start, _) :: _ => start

def skip (p : Cursor → Bool) : Cursor → Cursor
  | [] => []
  | c :: cursor => if p (c :: cursor) then skip p cursor else c :: cursor

/-- The text for as long as a condition holds, and what is left behind it. -/
def taken (source : List Char) (p : Cursor → Bool) (cursor : Cursor) :
    Bytewise (List Char × Cursor) := do
  let rest : Cursor := cursor.skip p
  let text ← cut source (cursor.place (byteSize source)) (rest.place (byteSize source))
  pure (text, rest)

end Cursor

/-! Conditions. -/

namespace Condition

/-- What is left behind a run of text; `quote` is the partner that is waited for, and `held` what is
left from the first delimiter since the quote that waits for it. -/
def runEnd : Option Char → Option Cursor → Cursor → Cursor
  | some _, some held, [] => held
  | _, _, [] => []
  | some q, held, (start, c) :: cursor =>
    if c = q then runEnd none held cursor
    else if isDelimiter c && held.isNone then runEnd (some q) (some ((start, c) :: cursor)) cursor
    else runEnd (some q) held cursor
  | none, held, (start, c) :: cursor =>
    if isQuote c then runEnd (some c) none cursor
    else if isDelimiter c then (start, c) :: cursor
    else runEnd none held cursor

/-- The token of logic that a character and the next one start, and the number of its characters. -/
def mark? (start : Nat) : Char → Option Char → Except ScriptError (Option (Token × Nat))
  | '(', _ => .ok (some (.opening, 1))
  | ')', _ => .ok (some (.closing, 1))
  | '&', some '&' => .ok (some (.and, 2))
  | '|', some '|' => .ok (some (.or, 2))
  | '&', _ => .error (.text .loneAnd ⟨start, start + 1⟩)
  | '|', _ => .error (.text .loneOr ⟨start, start + 1⟩)
  | '!', next => .ok (if next = some '=' then none else some (.not, 1))
  | _, _ => .ok none

/-- The tokens of what is left of a source; `fuel` bounds the number of its characters. -/
def bytewiseScanFrom (source : List Char) : Nat → Cursor → Bytewise (List (Spanned Token))
  | _, [] => pure []
  | 0, _ => pure []
  | fuel + 1, (start, c) :: cursor =>
    if Text.isBlank c then bytewiseScanFrom source fuel cursor
    else do
      match ← Bytewise.of (mark? start c (Cursor.next? cursor)) with
      | some (token, length) =>
        let rest : Cursor := cursor.drop (length - 1)
        let stop := rest.place (byteSize source)
        let tokens ← bytewiseScanFrom source fuel rest
        pure (⟨token, ⟨start, stop⟩⟩ :: tokens)
      | none =>
        let rest : Cursor := runEnd none none ((start, c) :: cursor)
        let text ← cut source start (rest.place (byteSize source))
        let atom := Text.trimEnd text
        let tokens ← bytewiseScanFrom source fuel rest
        pure (⟨.atom (String.ofList atom), ⟨start, start + byteSize atom⟩⟩ :: tokens)

def bytewiseScan (source : String) : Bytewise (List (Spanned Token)) :=
  bytewiseScanFrom source.toList source.length (.ofText 0 source.toList)

end Condition

namespace Atom

/-- The comparison operator that a character starts, and the number of its bytes; the flag says
whether an equals sign comes next. -/
def sign? : Char → Bool → Option (Comparison × Nat)
  | '>', true => some (.greaterOrEqual, 2)
  | '>', false => some (.greater, 1)
  | '<', true => some (.lessOrEqual, 2)
  | '<', false => some (.less, 1)
  | '!', true => some (.notEqual, 2)
  | '=', true => some (.equal, 2)
  | '=', false => some (.equal, 1)
  | _, _ => none

/-- The first comparison operator of a text, the byte at which it begins, and the number of its
bytes. -/
def operatorAt? : Cursor → Option (Nat × Comparison × Nat)
  | [] => none
  | (start, c) :: cursor =>
    match sign? c (Cursor.next? cursor == some '=') with
    | some (op, size) => some (start, op, size)
    | none => operatorAt? cursor

def isCutOutBy (quote : Char) (cs : List Char) : Bool :=
  byteSize cs ≥ 2 && cs.head? == some quote && cs.getLast? == some quote

def bytewiseLiteral (cs : List Char) : Bytewise Value :=
  if isCutOutBy '"' cs || isCutOutBy '\'' cs then do
    let text ← cut cs 1 (byteSize cs - 1)
    pure (.text (String.ofList text))
  else pure (.literal (String.ofList cs))

def bytewiseParse (text : String) (span : Span) : Bytewise Atom :=
  match operatorAt? (.ofText 0 text.toList) with
  | none => do
    Bytewise.of (checkPath text span)
    pure ⟨text, none, span⟩
  | some (start, op, size) => do
    let left ← cut text.toList 0 start
    let right ← cut text.toList (start + size) (byteSize text.toList)
    let path := Text.trim left
    let value := Text.trim right
    if path.isEmpty then throw (.text (.missingLeft op) span)
    else if value.isEmpty then throw (.text (.missingRight op) span)
    else do
      Bytewise.of (checkPath (String.ofList path) ⟨span.start, span.start + start⟩)
      let v ← bytewiseLiteral value
      pure ⟨String.ofList path, some (op, v), span⟩

end Atom

namespace Condition

def bytewiseInfixOf (t : Spanned Token) : Bytewise (Infix Atom Logic) :=
  match t.token with
  | .atom text => do
    let a ← Atom.bytewiseParse text t.span
    pure (.operand a)
  | _ => Bytewise.of (infixOf t)

def bytewiseParse (source : String) : Bytewise Condition := do
  let tokens ← bytewiseScan source
  if tokens.isEmpty then throw (.text .emptyCondition ⟨0, byteSize source.toList⟩)
  else do
    let parts ← tokens.mapM bytewiseInfixOf
    let program ← Bytewise.of ((toPostfix Logic.table parts).mapError unbalancedError)
    if isWellFormed Logic.table program then pure ⟨source, program⟩
    else throw (.text .missingOperand ⟨0, byteSize source.toList⟩)

end Condition

/-! Expressions. -/

namespace Expression

/-- The text up to a closing quote, escapes resolved, and what is left behind the quote. -/
def quotedRest (quote : Char) : Cursor → Option (List Char × Cursor)
  | [] => none
  | [(_, '\\')] => none
  | (_, '\\') :: (_, c) :: cursor =>
    (quotedRest quote cursor).map fun (text, rest) => (c :: text, rest)
  | (_, c) :: cursor =>
    if c = quote then some ([], cursor)
    else (quotedRest quote cursor).map fun (text, rest) => (c :: text, rest)

def bytewiseToken (source : List Char) (start : Nat) (c : Char) (cursor : Cursor) :
    Bytewise (Token × Cursor) :=
  match symbol? c with
  | some t => pure (t, cursor)
  | none =>
    if c = '"' ∨ c = '\'' then
      match quotedRest c cursor with
      | some (text, rest) => pure (.text (String.ofList text), rest)
      | none => throw (.text .unterminated ⟨start, byteSize source⟩)
    else if startsNumber (c :: cursor.chars) then do
      let (text, rest) ← Cursor.taken source (·.next?.any isNumberChar) ((start, c) :: cursor)
      match Number.ofText? text with
      | some x => pure (.number x, rest)
      | none =>
        throw (.text (.malformedNumber (String.ofList text)) ⟨start, start + byteSize text⟩)
    else if startsName c then do
      let (text, rest) ← Cursor.taken source (continuesName ·.chars) ((start, c) :: cursor)
      pure (nameToken text, rest)
    else throw (.text (.unexpected c) ⟨start, start + c.utf8Size⟩)

def bytewiseScanFrom (source : List Char) : Nat → Cursor → Bytewise (List (Spanned Token))
  | _, [] => pure []
  | 0, _ => pure []
  | fuel + 1, (start, c) :: cursor =>
    if Text.isBlank c then bytewiseScanFrom source fuel cursor
    else do
      let (t, rest) ← bytewiseToken source start c cursor
      let stop := rest.place (byteSize source)
      let tokens ← bytewiseScanFrom source fuel rest
      pure (⟨t, ⟨start, stop⟩⟩ :: tokens)

def bytewiseScan (source : List Char) : Bytewise (List (Spanned Token)) :=
  bytewiseScanFrom source source.length (.ofText 0 source)

def bytewiseParse (source : List Char) : Bytewise Expression :=
  let trimmed := String.ofList (Text.trim source)
  if trimmed = "true" then pure (ofValue (.bool true))
  else if trimmed = "false" then pure (ofValue (.bool false))
  else do
    let tokens ← bytewiseScan source
    if tokens.isEmpty then throw (.text .emptyExpression ⟨0, byteSize source⟩)
    else do
      let program ← Bytewise.of
        ((toPostfix Arithmetic.table (infixes false tokens)).mapError unbalancedError)
      if isWellFormed Arithmetic.table program then pure ⟨program⟩
      else throw (.evaluation (.missingOperand trimmed))

end Expression

/-! Assignments. -/

def separators (sep : Char) : Quoting → Cursor → List Nat
  | _, [] => []
  | q, (start, c) :: cursor =>
    if q = .outside ∧ c = sep then start :: separators sep .outside cursor
    else separators sep (q.step c) cursor

def placesBetween (sep : Char) (size : Nat) : Nat → List Nat → List Span
  | start, [] => [⟨start, size⟩]
  | start, stop :: stops => ⟨start, stop⟩ :: placesBetween sep size (stop + sep.utf8Size) stops

namespace Assignment

/-- Reads a clause that begins at a byte of a script, and its expression as a source of its own. -/
def bytewiseParse (clause : List Char) (start : Nat) : Bytewise Assignment :=
  let span : Span := ⟨start, start + byteSize clause⟩
  match (separators '=' .outside (.ofText 0 clause)).head? with
  | none => throw (.text (.notAssignment (String.ofList clause)) span)
  | some equals => do
    let target := Text.trim (← cut clause 0 equals)
    let name := String.ofList target
    let place : Span := ⟨start, start + equals⟩
    if target.isEmpty ∨ target.any Text.isBlank then throw (.text (.malformedTarget name) place)
    else if (Path.ofText? name).isNone then throw (.text (.invalidPath name) place)
    else do
      let right ← cut clause (equals + 1) (byteSize clause)
      let expression ← (Expression.bytewiseParse right).adapt (.shift (start + (equals + 1)))
      pure ⟨name, expression.shift (start + (equals + 1)), span⟩

def bytewiseParseAll (source : List Char) : List Span → Bytewise (List Assignment)
  | [] => pure []
  | place :: places => do
    let piece ← cut source place.start place.stop
    let trimmed := Text.trimStart piece
    let start := place.start + (byteSize piece - byteSize trimmed)
    let clause := Text.trimEnd trimmed
    if clause.isEmpty then bytewiseParseAll source places
    else do
      let first ← bytewiseParse clause start
      let others ← bytewiseParseAll source places
      pure (first :: others)

end Assignment

def bytewiseParseAssignments (source : String) : Bytewise (List Assignment) :=
  let cs := source.toList
  Assignment.bytewiseParseAll cs
    (placesBetween ';' (byteSize cs) 0 (separators ';' .outside (.ofText 0 cs)))

end Storyworld.Script
