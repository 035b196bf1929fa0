/-
Estree/Load/Text.lean

Loading a program from JSON text.

The text is read from front to back and the first fault wins.  The members of the program and
its statements are taken one after the other: a statement of unknown kind is noticed as soon
as its `type` has been read, a statement that does not fit as soon as it ends, and faults
further on are never seen.  Members of the program that the schema does not know are passed
over, whatever numbers and strings they contain.

Every reader below is given a `limit`, the length of the whole text, which bounds its steps.
-/
import Estree.Json.Reader
import Estree.Load.Tree

namespace Estree

/-- Why a program could not be loaded. -/
inductive LoadError where
  /-- A well-formed document that does not fit the schema. -/
  | misfit
  /-- Not a document. -/
  | malformed
  /-- The text ends too early. -/
  | truncated
deriving DecidableEq

namespace Load

open Json (Cursor Fault Policy Reason)

variable {α σ : Type}

/-- Reads one thing at a cursor. -/
abbrev Part (α : Type) := Cursor → Except LoadError (α × Cursor)

/-- The error for a fault in the text. -/
def errorOf (reason : Reason) : LoadError :=
  if reason.isEnd then .truncated else .malformed

/-- Carry a reading over. -/
def part : Json.Reading α → Except LoadError (α × Cursor)
  | .ok r => .ok r
  | .error f => .error (errorOf f.reason)

/-- A value where something else is expected: its own faults come first.  An array or an
object is not looked into. -/
def unexpected (limit depth : Nat) (c : Cursor) : LoadError :=
  match c.rest with
  | '[' :: _ | '\x7b' :: _ => .misfit
  | _ =>
    match Json.read .strict limit depth c with
    | .ok _ => .misfit
    | .error f => errorOf f.reason

/-! ### Items and members, one after the other -/

/-- The items of an array after its opening bracket, read one by one. -/
def eachItem (item : Part α) : Nat → Bool → List α → Part (List α)
  | 0, _, _, _ => .error .truncated
  | fuel + 1, first, acc, c =>
    let c := c.settle
    match c.rest with
    | [] => .error .truncated
    | ']' :: _ => .ok (acc.reverse, c.advance)
    | ch :: _ =>
      if first then
        match item c with
        | .error e => .error e
        | .ok (a, c) => eachItem item fuel false (a :: acc) c
      else if ch = ',' then
        let c := c.advance.settle
        match c.rest with
        | [] => .error .truncated
        | ']' :: _ => .error .malformed
        | _ =>
          match item c with
          | .error e => .error e
          | .ok (a, c) => eachItem item fuel false (a :: acc) c
      else .error .malformed

/-- The members of an object after its opening brace, one by one; `member` is given the name
and the cursor after it. -/
def eachMember (limit : Nat) (member : σ → String → Part σ) : Nat → Bool → σ → Part σ
  | 0, _, _, _ => .error .truncated
  | fuel + 1, first, state, c =>
    let c := c.settle
    match c.rest with
    | [] => .error .truncated
    | '\x7d' :: _ => .ok (state, c.advance)
    | ch :: _ =>
      -- every member but the first stands after a comma
      let start : Except LoadError Cursor :=
        if first then .ok c
        else if ch = ',' then .ok c.advance.settle
        else .error .malformed
      match start with
      | .error e => .error e
      | .ok c =>
        match c.rest with
        | [] => .error .truncated
        | '"' :: _ =>
          match part (Json.readString .strict limit c.advance) with
          | .error e => .error e
          | .ok (name, c) =>
            match member state name c with
            | .error e => .error e
            | .ok (state, c) => eachMember limit member fuel false state c
        | _ => .error .malformed

/-- The colon after a member's name. -/
def colon (c : Cursor) : Except LoadError Cursor :=
  match Json.readColon c with
  | .ok c => .ok c.settle
  | .error f => .error (errorOf f.reason)

/-! ### Statements -/

/-- The kind of a statement, as a string. -/
def kindPart (limit : Nat) : Part String := fun c =>
  match c.rest with
  | '"' :: _ =>
    match part (Json.readString .strict limit c.advance) with
    | .error e => .error e
    | .ok (s, c) => if stmtKinds.contains s then .ok (s, c) else .error .misfit
  | _ => .error (unexpected limit 3 c)

/-- What is known of a statement while its members are read. -/
structure Gathered where
  kind : Option String := none
  members : List (String × Json) := []

/-- One member of a statement. -/
def stmtMember (limit : Nat) (g : Gathered) (name : String) : Part Gathered := fun c =>
  if name = "type" then
    if g.kind.isSome then .error .misfit
    else do
      let c ← colon c
      let (kind, c) ← kindPart limit c
      .ok ({ g with kind := some kind }, c)
  else do
    let c ← colon c
    let (j, c) ← part (Json.read .strict limit 3 c)
    .ok ({ g with members := (name, j) :: g.members }, c)

/-- A statement of which kind and fields are known. -/
def finishStmt (kind : String) (fields : Json) (c : Cursor) : Except LoadError (Stmt × Cursor) :=
  match stmtOfKind (readers fields.depth) kind fields with
  | some s => .ok (s, c)
  | none => .error .misfit

/-- A statement of the program. -/
def stmtPart (limit : Nat) : Part Stmt := fun c =>
  match c.rest with
  | '\x7b' :: _ => do
    let (g, c) ← eachMember limit (stmtMember limit) (limit + 1) true {} c.advance
    match g.kind with
    | none => .error .misfit
    | some kind => finishStmt kind (.obj g.members.reverse) c
  | '[' :: _ => do
    -- the kind comes first, then the fields in order
    let inner := c.advance.settle
    match inner.rest with
    | [] => .error .truncated
    | ']' :: _ => .error .misfit
    | _ =>
      let (kind, c) ← kindPart limit inner
      let item : Part Json := fun c => part (Json.read .strict limit 3 c)
      let (items, c) ← eachItem item (limit + 1) false [] c
      finishStmt kind (.arr items) c
  | _ => .error (unexpected limit 2 c)

/-! ### Programs -/

/-- The statements of the program. -/
def bodyPart (limit : Nat) : Part (List Stmt) := fun c =>
  match c.rest with
  | '[' :: _ => eachItem (stmtPart limit) (limit + 1) true [] c.advance
  | _ => .error (unexpected limit 1 c)

/-- A word where a source type is expected; nothing but a string will do. -/
def sourceWord (limit : Nat) : Part SourceType := fun c =>
  match c.rest with
  | [] => .error .truncated
  | '"' :: _ =>
    match part (Json.readString .strict limit c.advance) with
    | .error e => .error e
    | .ok (s, c) =>
      match SourceType.ofWord? s with
      | some t => .ok (t, c)
      | none => .error .misfit
  | _ => .error .malformed

/-- The source type of the program: a word, or an object whose only member has the word for a
name and null for a value. -/
def sourcePart (limit : Nat) : Part SourceType := fun c =>
  match c.rest with
  | '\x7b' :: _ => do
    let (t, c) ← sourceWord limit c.advance.settle
    let c ← colon c
    let c ← (match c.rest with
      | 'n' :: _ => (part (Json.read .strict limit 2 c)).map Prod.snd
      | _ => .error (unexpected limit 2 c))
    let c := c.settle
    match c.rest with
    | '\x7d' :: _ => .ok (t, c.advance)
    | [] => .error .truncated
    | _ => .error .malformed
  | _ => sourceWord limit c

/-- What is known of the program while its members are read. -/
structure Outlined where
  body : Option (List Stmt) := none
  source : Option SourceType := none

/-- One member of the program. -/
def programMember (limit : Nat) (o : Outlined) (name : String) : Part Outlined := fun c =>
  if name = "body" then
    if o.body.isSome then .error .misfit
    else do
      let c ← colon c
      let (stmts, c) ← bodyPart limit c
      .ok ({ o with body := some stmts }, c)
  else if name = "sourceType" then
    if o.source.isSome then .error .misfit
    else do
      let c ← colon c
      let (t, c) ← sourcePart limit c
      .ok ({ o with source := some t }, c)
  else do
    let c ← colon c
    let (_, c) ← part (Json.read .lenient limit 1 c)
    .ok (o, c)

/-- A program written as the array of its fields. -/
def placedProgram (limit : Nat) : Part Program := fun c => do
  let c := c.settle
  match c.rest with
  | [] => .error .truncated
  | ']' :: _ => .error .misfit
  | _ =>
    let (stmts, c) ← bodyPart limit c
    let c := c.settle
    match c.rest with
    | [] => .error .truncated
    | ']' :: _ => .ok ({ body := stmts }, c.advance)
    | ',' :: _ =>
      let c := c.advance.settle
      match c.rest with
      | [] => .error .truncated
      | ']' :: _ => .error .malformed
      | _ =>
        let (t, c) ← sourcePart limit c
        let c := c.settle
        match c.rest with
        | [] => .error .truncated
        | ']' :: _ => .ok ({ body := stmts, sourceType := t }, c.advance)
        | _ => .error .malformed
    | _ => .error .malformed

/-- The program at the cursor. -/
def programPart (limit : Nat) : Part Program := fun c =>
  match c.rest with
  | [] => .error .truncated
  | '\x7b' :: _ => do
    let (o, c) ← eachMember limit (programMember limit) (limit + 1) true {} c.advance
    match o.body with
    | none => .error .misfit
    | some stmts => .ok ({ body := stmts, sourceType := o.source.getD .script }, c)
  | '[' :: _ => placedProgram limit c.advance
  | _ => .error (unexpected limit 0 c)

end Load

/-- Load a program from JSON text. -/
def Program.ofText (text : String) : Except LoadError Program :=
  let start : Json.Cursor := { rest := text.toList }
  match Load.programPart start.rest.length start.settle with
  | .error e => .error e
  | .ok (p, c) =>
    match Json.expectEnd c with
    | .error f => .error (Load.errorOf f.reason)
    | .ok () => .ok p

end Estree
