/-
Estree/Proofs/Load/Text.lean

To load a program from a text is to load it from the document that the text is.

The loader of texts makes no document.  It reads members and statements one after the other and
stops at the first fault, while the loader of documents has all of them before it looks at one.
Both come to the same (`Program.ofText_eq_ofJson?`): each part of the loader of texts gives what
the corresponding decoder makes of the value that stands there, behind this value (`Yields`).

The parts follow the grammar of the text (`ItemsAt`, `MembersAt`), which needs no fuel and no
accumulator.  Items are decoded one by one, and members are folded (`eachItem_yields`,
`eachMember_yields`), with a field that may be read at most once as one step of the fold (`once`).
What is decoded from the folded members of a statement or a program is what is decoded from the
object that they are the members of (`foldlM_stmtStep`, `foldlM_programStep`).

A member of the program that the schema does not know is passed over under the most lenient policy,
under which it ends where it ends as a document (`ValueAt.reads`).
-/
import Estree.Load.Text
import Estree.Proofs.Json.Grammar
import Estree.Proofs.Load.Rearranged

namespace Estree

namespace Load

open Json (Cursor ItemsAt MembersAt Policy ValueAt valuesOf)

variable {α β σ : Type} {limit depth : Nat} {first : Bool} {c d e f : Cursor} {j : Json}
variable {name : String} {rest : List Char}

/-! ### Parts and decoders -/

/-- A part gives what has been decoded, with the cursor behind it, or is at fault if nothing has. -/
def Yields (r : Except LoadError (α × Cursor)) (o : Option α) (e : Cursor) : Prop :=
  r.toOption = o.map fun a => (a, e)

theorem Yields.ok (a : α) (e : Cursor) : Yields (.ok (a, e)) (some a) e :=
  rfl

theorem Yields.error (f : LoadError) (e : Cursor) : Yields (α := α) (.error f) none e :=
  rfl

/-- A part that gives something has gone through. -/
theorem Yields.eq_ok {r : Except LoadError (α × Cursor)} {a : α} (h : Yields r (some a) e) :
    r = .ok (a, e) := by
  cases r with
  | error => cases h
  | ok r =>
    cases h
    rfl

/-- A part that gives nothing is at fault. -/
theorem Yields.eq_error {r : Except LoadError (α × Cursor)} (h : Yields r none e) :
    ∃ f, r = .error f := by
  cases r with
  | error f => exact ⟨f, rfl⟩
  | ok => cases h

/-- What goes on after a part goes on after what has been decoded. -/
theorem Yields.bind {r : Except LoadError (α × Cursor)} {o : Option α}
    {k : α × Cursor → Except LoadError (β × Cursor)} {g : α → Option β} (h : Yields r o e)
    (hk : ∀ a, o = some a → Yields (k (a, e)) (g a) f) : Yields (r >>= k) (o.bind g) f := by
  cases o with
  | none =>
    obtain ⟨f, rfl⟩ := h.eq_error
    exact .error _ _
  | some a =>
    rw [h.eq_ok]
    exact hk a rfl

theorem Yields.map {r : Except LoadError (α × Cursor)} {o : Option α} (h : Yields r o e)
    (g : α → β) : Yields (r >>= fun a => .ok (g a.1, a.2)) (o.map g) e := by
  rw [Option.map_eq_bind]
  exact h.bind fun a _ => .ok ..

theorem ok_bind (a : α) (k : α → Except LoadError β) : (Except.ok a >>= k) = k a :=
  rfl

theorem ok_map (a : α) (k : α → β) : (Except.ok a : Except LoadError α).map k = .ok (k a) :=
  rfl

/-! ### Values -/

/-- A value that stands there is read where its content is used. -/
theorem read_strict (h : ValueAt .strict depth d j e) (hl : d.rest.length ≤ limit) :
    Json.read .strict limit depth d = .ok (j, e) := by
  obtain ⟨j', hread, hsame⟩ := h.reads (.refl _) (3 * limit + 3) (by omega)
  cases hsame rfl
  exact hread

/-- It is read, as something, where it is passed over. -/
theorem read_lenient (h : ValueAt .strict depth d j e) (hl : d.rest.length ≤ limit) :
    ∃ j', Json.read .lenient limit depth d = .ok (j', e) := by
  obtain ⟨j', hread, -⟩ := h.reads Policy.strict_within_lenient (3 * limit + 3) (by omega)
  exact ⟨j', hread⟩

/-- So a value that is to be kept is what the part gives. -/
theorem yields_read (h : ValueAt .strict depth d j e) (hl : d.rest.length ≤ limit) :
    Yields (part (Json.read .strict limit depth d)) (some j) e := by
  rw [read_strict h hl]
  exact .ok j e

/-- A value begins behind the white space after the colon. -/
theorem colon_eq (h : Json.readColon c = .ok d) : colon c = .ok d.settle := by
  rw [colon, h]

/-! ### Items and members -/

section lists

variable {item : Part α} {decode : Json → Option α} {member : σ → String → Part σ}
variable {step : σ → String × Json → Option σ} {acc : List α} {state : σ} {n : Nat}

/-- The loop ends at the closing bracket. -/
theorem eachItem_close (h : c.settle.rest = ']' :: rest) :
    eachItem item (n + 1) first acc c = .ok (acc.reverse, c.settle.advance) := by
  rw [eachItem]
  simp only [h]

/-- One round of the loop: an item, and then the others after it. -/
theorem eachItem_next (hnext : c.next? first = some d) (hopen : ∀ rest, d.rest ≠ ']' :: rest)
    (hne : d.rest ≠ []) :
    eachItem item (n + 1) first acc c
      = item d >>= fun r => eachItem item n false (r.1 :: acc) r.2 := by
  obtain ⟨ch, rest, hrest⟩ := List.exists_cons_of_ne_nil hne
  have hch : ch ≠ ']' := by
    rintro rfl
    exact hopen rest hrest
  rw [eachItem]
  cases first with
  -- the first item follows the bracket, every other one a comma
  | true =>
    cases hnext
    simp only [hrest, if_true]
    cases item c.settle <;> rfl
  | false =>
    obtain ⟨⟨rest', hcomma⟩, rfl⟩ := Cursor.of_next?_comma hnext
    simp only [hcomma, hrest, Bool.false_eq_true, if_false]
    split
    · contradiction
    · exact absurd (List.cons.inj ‹_›).1 (by decide)
    · obtain ⟨rfl, -⟩ := List.cons.inj ‹_›
      rw [if_pos rfl]
      split
      · contradiction
      · exact absurd (List.cons.inj ‹_›).1 hch
      · cases item c.settle.advance.settle <;> rfl

/-- If a part gives what is decoded from the value in front of it, then the items of an array give
what is decoded from them one by one. -/
theorem eachItem_yields
    (hitem : ∀ d j e, d.settle = d → d.rest.length ≤ limit → ValueAt .strict depth d j e →
      Yields (item d) (decode j) e) {first : Bool} {c e : Cursor} {items : List Json} :
    ItemsAt .strict depth first c items e → c.rest.length ≤ limit → ∀ n acc, c.rest.length < n →
      Yields (eachItem item n first acc c) ((items.mapM decode).map (acc.reverse ++ ·)) e
  | .close hclose, _, n + 1, acc, _ => by
    rw [eachItem_close hclose]
    show _ = some (acc.reverse ++ [], _)
    rw [List.append_nil]
    rfl
  | @ItemsAt.item _ _ _ c d f _ j items hnext hopen h hitems, hl, n + 1, acc, hn => by
    have hd := Cursor.length_next? hnext
    have hf := h.length_lt
    have hne : d.rest ≠ [] := fun hr => by simp [hr] at hf
    -- collecting backwards is decoding in order
    have hsplit : ((j :: items).mapM decode).map (acc.reverse ++ ·)
        = (decode j).bind fun a => (items.mapM decode).map ((a :: acc).reverse ++ ·) := by
      rw [List.mapM_cons]
      cases decode j with
      | none => rfl
      | some a =>
        cases items.mapM decode with
        | none => rfl
        | some as => simp
    rw [eachItem_next hnext hopen hne, hsplit]
    exact (hitem _ _ _ (Cursor.settle_of_next? hnext) (hd.trans hl) h).bind fun a _ =>
      eachItem_yields hitem hitems (by omega) n (a :: acc) (by omega)

/-- The loop ends at the closing brace. -/
theorem eachMember_close (h : c.settle.rest = '\x7d' :: rest) :
    eachMember limit member (n + 1) first state c = .ok (state, c.settle.advance) := by
  rw [eachMember]
  simp only [h]

/-- One round of the loop: a name, what is made of its value, and then the others after it. -/
theorem eachMember_next (hnext : c.next? first = some d) (hrest : d.rest = '"' :: rest) :
    eachMember limit member (n + 1) first state c
      = part (Json.readString .strict limit d.advance) >>= fun r => member state r.1 r.2 >>=
          fun r => eachMember limit member n false r.1 r.2 := by
  rw [eachMember]
  cases first with
  -- the first name follows the brace, every other one a comma
  | true =>
    cases hnext
    simp only [hrest, if_true]
    cases part (Json.readString .strict limit c.settle.advance) with
    | error => rfl
    | ok r =>
      show _ = (member state r.1 r.2 >>= _)
      dsimp only
      cases member state r.1 r.2 <;> rfl
  | false =>
    obtain ⟨⟨rest', hcomma⟩, rfl⟩ := Cursor.of_next?_comma hnext
    simp only [hcomma, Bool.false_eq_true, if_false]
    split
    · contradiction
    · exact absurd (List.cons.inj ‹_›).1 (by decide)
    · obtain ⟨rfl, -⟩ := List.cons.inj ‹_›
      rw [if_pos rfl]
      simp only [hrest]
      cases part (Json.readString .strict limit c.settle.advance.settle.advance) with
      | error => rfl
      | ok r =>
        show _ = (member state r.1 r.2 >>= _)
        dsimp only
        cases member state r.1 r.2 <;> rfl

/-- If a part for members makes a step of each, then the members of an object are folded. -/
theorem eachMember_yields
    (hmember : ∀ state name j c d e, c.rest.length ≤ limit → Json.readColon c = .ok d →
      ValueAt .strict depth d j e → Yields (member state name c) (step state (name, j)) e)
    {first : Bool} {c e : Cursor} {members : List (String × Json)} :
    MembersAt .strict depth first c members e → c.rest.length ≤ limit →
      ∀ n state, c.rest.length < n →
        Yields (eachMember limit member n first state c) (members.foldlM step state) e
  | .close hclose, _, n + 1, state, _ => by
    rw [eachMember_close hclose]
    rfl
  | @MembersAt.member _ _ _ c d e f g _ name j members rest hnext hrest hname hcolon h hmembers,
      hl, n + 1, state, hn => by
    have hd := Cursor.length_next? hnext
    have hadvance := Cursor.length_advance hrest
    obtain ⟨he, hname⟩ := Json.readString_carried id hname
    have hf := Json.length_readColon hcolon
    have hg := h.length_lt
    -- the name is the same under any bound that leaves room for it
    obtain ⟨name', hname', hsame⟩ := hname limit (by omega)
    cases hsame rfl
    rw [eachMember_next hnext hrest, hname']
    exact (hmember _ _ _ _ _ _ (by omega) hcolon h).bind fun state _ =>
      eachMember_yields hmember hmembers (by omega) n state (by omega)

end lists

/-! ### Fields that stand once -/

/-- A field is read that has not been read before. -/
def once (decode : Json → Option α) : Option α → Json → Option (Option α)
  | none, j => (decode j).map some
  | some _, _ => none

/-- Of no value nothing is read, one value is decoded, and more are too many. -/
theorem foldlM_once (decode : Json → Option α) (values : List Json) :
    values.foldlM (once decode) none = match values with
      | [] => some none
      | [j] => (decode j).map some
      | _ => none := by
  match values with
  | [] => rfl
  | [j] =>
    rw [List.foldlM_cons, once]
    show _ = (decode j).map some
    cases decode j <;> rfl
  | j :: k :: values =>
    rw [List.foldlM_cons, once]
    cases decode j <;> rfl

/-! ### Statements -/

/-- A part that reads something else than strings is at fault in front of one, and the other way
round: no word or container is the tag of a kind. -/
theorem kindPart_yields (hd : d.settle = d) (hl : d.rest.length ≤ limit)
    (h : ValueAt .strict depth d j e) :
    Yields (kindPart limit d) (kindOfTag .name stmtKinds j) e := by
  -- only a quoted word can be a kind
  have other {ch : Char} {rest : List Char} (hrest : d.settle.rest = ch :: rest) (hch : ch ≠ '"')
      (hj : kindOfTag .name stmtKinds j = none) :
      Yields (kindPart limit d) (kindOfTag .name stmtKinds j) e := by
    rw [hj, kindPart]
    rw [hd] at hrest
    simp only [hrest]
    split
    · exact absurd (List.cons.inj ‹_›).1 hch
    · exact .error _ _
  cases h with
  | atom hrest hch h =>
    refine other hrest hch.1 ?_
    obtain ⟨-, hatom, -⟩ := Json.readValue_atom_carried id hrest hch h
    cases hatom with
    | null => rfl
    | bool => rfl
    | @num _ n => cases n <;> rfl
  | @str _ _ _ text rest hrest h =>
    rw [hd] at hrest h
    have hadvance := Cursor.length_advance hrest
    obtain ⟨text', htext, hsame⟩ := (Json.readString_carried id h).2 limit (by omega)
    cases hsame rfl
    rw [kindPart]
    simp only [hrest, htext, part, kindOfTag]
    split
    · exact .ok _ _
    · exact .error _ _
  | arr hrest => exact other hrest (by decide) rfl
  | obj hrest => exact other hrest (by decide) rfl

/-- One member of a statement is noted. -/
def stmtStep (g : Gathered) (m : String × Json) : Option Gathered :=
  if m.1 = "type" then
    (once (kindOfTag .name stmtKinds) g.kind m.2).map fun kind => { g with kind }
  else some { g with members := m :: g.members }

/-- A member of a statement is its kind, or one of its fields. -/
theorem stmtMember_yields (g : Gathered) (hl : c.rest.length ≤ limit)
    (hcolon : Json.readColon c = .ok d) (h : ValueAt .strict 3 d j e) :
    Yields (stmtMember limit g name c) (stmtStep g (name, j)) e := by
  have hd : d.settle.rest.length ≤ limit := by
    have := d.length_settle
    have := Json.length_readColon hcolon
    omega
  unfold stmtMember stmtStep
  split
  · cases hkind : g.kind with
    | some kind => exact .error _ _
    | none =>
      rw [once, colon_eq hcolon, Option.map_map]
      exact (kindPart_yields d.settle_settle hd h.settle).map fun kind =>
        { g with kind := some kind }
  · rw [colon_eq hcolon]
    exact (yields_read h.settle hd).map fun j => { g with members := (name, j) :: g.members }

/-- The members of a statement are the values for its kind, and all others in front of those that
have been noted before. -/
theorem foldlM_stmtStep (members : List (String × Json)) (g : Gathered) :
    members.foldlM stmtStep g
      = ((valuesOf "type" members).foldlM (once (kindOfTag .name stmtKinds)) g.kind).map
          fun kind =>
            { kind, members := (members.filter fun m => m.1 != "type").reverse ++ g.members } := by
  induction members generalizing g with
  | nil => rfl
  | cons m members ih =>
    obtain ⟨name, j⟩ := m
    rw [List.foldlM_cons]
    by_cases hname : name = "type"
    · subst hname
      rw [Json.valuesOf_cons_self, List.foldlM_cons, stmtStep, if_pos rfl]
      cases once (kindOfTag .name stmtKinds) g.kind j with
      | none => rfl
      | some kind => exact ih { g with kind }
    · rw [Json.valuesOf_cons_of_ne hname, stmtStep, if_neg hname]
      refine (ih _).trans ?_
      simp [hname]

/-- More levels than the fields have change nothing about what is read. -/
theorem finishStmt_yields {kind : String} {fields : Json} {n : Nat} (hn : fields.depth ≤ n + 1) :
    Yields (finishStmt kind fields e) (stmtOfKind (readers n) kind fields) e := by
  have hsame := (readers_agree fields.depth n).stmtOfKind kind (.same fields) (Nat.le_succ _) hn
  rw [finishStmt, ← hsame]
  cases stmtOfKind (readers fields.depth) kind fields with
  | none => exact .error _ _
  | some s => exact .ok _ _

/-- A statement written as an array: its kind comes first. -/
theorem readStmt_arr (r : Readers) (tag : Json) (items : List Json) :
    readStmt r .name (.arr (tag :: items))
      = (kindOfTag .name stmtKinds tag).bind fun kind => stmtOfKind r kind (.arr items) := by
  show ((kindOfTag .name stmtKinds tag).map fun kind => (kind, Json.arr items)).bind _ = _
  rw [Option.bind_map]
  rfl

/-- A statement written as an object: its members are noted, and it is read from the notes. -/
theorem readStmt_obj (r : Readers) (members : List (String × Json)) :
    readStmt r .name (.obj members)
      = (members.foldlM stmtStep {}).bind fun g =>
          g.kind.bind fun kind => stmtOfKind r kind (.obj g.members.reverse) := by
  show (tagged .name stmtKinds (.obj members)).bind _ = _
  rw [tagged_obj, foldlM_stmtStep, foldlM_once, List.append_nil]
  match valuesOf "type" members with
  | [] => rfl
  | [tag] =>
    dsimp only
    cases kindOfTag .name stmtKinds tag with
    | none => rfl
    | some kind =>
      show _ = stmtOfKind r kind (.obj (members.filter fun m => m.1 != "type").reverse.reverse)
      rw [List.reverse_reverse]
      rfl
  | _ :: _ :: _ => rfl

/-- A statement of the program. -/
theorem stmtPart_yields (hd : d.settle = d) (hl : d.rest.length ≤ limit)
    (h : ValueAt .strict 2 d j e) :
    Yields (stmtPart limit d) (readStmt (readers j.depth) .name j) e := by
  -- a statement is an object or an array, anything else is refused
  have other {ch : Char} {rest : List Char} (hrest : d.settle.rest = ch :: rest)
      (hch : ch ≠ '[' ∧ ch ≠ '\x7b') (hj : readStmt (readers j.depth) .name j = none) :
      Yields (stmtPart limit d) (readStmt (readers j.depth) .name j) e := by
    rw [hj, stmtPart]
    rw [hd] at hrest
    simp only [hrest]
    split
    · exact absurd (List.cons.inj ‹_›).1 hch.2
    · exact absurd (List.cons.inj ‹_›).1 hch.1
    · exact .error _ _
  cases h with
  | atom hrest hch h =>
    refine other hrest hch.2 ?_
    obtain ⟨-, hatom, -⟩ := Json.readValue_atom_carried id hrest hch h
    cases hatom <;> rfl
  | str hrest => exact other hrest (by decide) rfl
  | arr hrest _ h =>
    rw [hd] at hrest h
    have hadvance := Cursor.length_advance hrest
    rw [stmtPart]
    simp only [hrest]
    cases h with
    | close hclose =>
      simp only [hclose]
      exact .error _ _
    | @item _ _ _ _ f _ tag items hnext hopen h hitems =>
      have hlength := Cursor.length_next? hnext
      have hf := h.length_lt
      cases hnext
      split
      · rename_i hnil
        simp [hnil] at hf
      · exact absurd ‹_› (hopen _)
      · rw [readStmt_arr]
        refine (kindPart_yields (Cursor.settle_settle _) (by omega) h).bind fun kind _ => ?_
        -- by position: the kind, and the remaining items as they are
        have hread : Yields (eachItem (fun c => part (Json.read .strict limit 3 c)) (limit + 1)
            false [] f) (some items) e := by
          have hsome : items.mapM some = some items :=
            (List.mapM_pure (m := Option) (f := id)).trans (congrArg some (List.map_id items))
          have hitems := eachItem_yields (fun _ _ _ _ hl h => yields_read h hl) hitems
            (by omega : f.rest.length ≤ limit) (limit + 1) [] (by omega)
          rw [hsome] at hitems
          exact hitems
        refine hread.bind (g := fun items => stmtOfKind _ kind (.arr items)) fun _ hsome => ?_
        cases hsome
        exact finishStmt_yields (Nat.succ_le_succ (Nat.le_succ_of_le (Nat.le_max_right _ _)))
  | @obj _ _ _ members _ hrest _ h =>
    rw [hd] at hrest h
    have hadvance := Cursor.length_advance hrest
    rw [stmtPart, readStmt_obj]
    simp only [hrest]
    refine (eachMember_yields (fun g _ _ _ _ _ hl hcolon h => stmtMember_yields g hl hcolon h) h
      (by omega : d.advance.rest.length ≤ limit) (limit + 1) {} (by omega)).bind fun g hg => ?_
    -- by name: the kind may come last, so the other members are kept until it is known
    cases hkind : g.kind with
    | none => exact .error _ _
    | some kind =>
      rw [foldlM_stmtStep, List.append_nil] at hg
      obtain ⟨_, -, rfl⟩ := Option.map_eq_some_iff.1 hg
      rw [List.reverse_reverse]
      exact finishStmt_yields
        (Nat.succ_le_succ (Nat.le_succ_of_le (Json.depthMembers_filter _ members)))

/-! ### The members of a program -/

/-- The statements of a program, each read with as many levels as it has. -/
def stmtsOf : Json → Option (List Stmt) :=
  listOf fun j => readStmt (readers j.depth) .name j

/-- So many levels as all of them have are read alike. -/
theorem stmtsOf_eq {n : Nat} (hn : j.depth ≤ n) :
    stmtsOf j = listOf (readStmt (readers n) .name) j := by
  refine Agree.listOf (n := n) (m := n) (fun k k' hk _ hm => ?_) (.same j) hn hn
  exact (readers_agree k.depth n).readStmt .name hk (Nat.le_succ _) (Nat.le_succ_of_le hm)

/-- The statements of the program, which stand in an array. -/
theorem bodyPart_yields (hd : d.settle = d) (hl : d.rest.length ≤ limit)
    (h : ValueAt .strict 1 d j e) : Yields (bodyPart limit d) (stmtsOf j) e := by
  -- a body is an array
  have other {ch : Char} {rest : List Char} (hrest : d.settle.rest = ch :: rest)
      (hch : ch ≠ '[') (hj : stmtsOf j = none) :
      Yields (bodyPart limit d) (stmtsOf j) e := by
    rw [hj, bodyPart]
    rw [hd] at hrest
    simp only [hrest]
    split
    · exact absurd (List.cons.inj ‹_›).1 hch
    · exact .error _ _
  cases h with
  | atom hrest hch h =>
    refine other hrest hch.2.1 ?_
    obtain ⟨-, hatom, -⟩ := Json.readValue_atom_carried id hrest hch h
    cases hatom <;> rfl
  | str hrest => exact other hrest (by decide) rfl
  | obj hrest => exact other hrest (by decide) rfl
  | @arr _ _ _ items _ hrest _ h =>
    rw [hd] at hrest h
    have hadvance := Cursor.length_advance hrest
    rw [bodyPart]
    simp only [hrest]
    have := eachItem_yields (fun _ _ _ hd hl h => stmtPart_yields hd hl h) h
      (by omega : d.advance.rest.length ≤ limit)
      (limit + 1) [] (by omega)
    simpa [stmtsOf, listOf] using this

/-- A word for a source type, where no object stands. -/
theorem sourceWord_yields (hd : d.settle = d) (hl : d.rest.length ≤ limit)
    (h : ValueAt .strict depth d j e) (hobj : ∀ rest, d.rest ≠ '\x7b' :: rest) :
    Yields (sourceWord limit d) (sourceType j) e := by
  -- the source type is a quoted word, apart from the form as an object
  have other {ch : Char} {rest : List Char} (hrest : d.settle.rest = ch :: rest)
      (hch : ch ≠ '"') (hj : sourceType j = none) :
      Yields (sourceWord limit d) (sourceType j) e := by
    rw [hj, sourceWord]
    rw [hd] at hrest
    simp only [hrest]
    split
    · contradiction
    · exact absurd (List.cons.inj ‹_›).1 hch
    · exact .error _ _
  cases h with
  | atom hrest hch h =>
    refine other hrest hch.1 ?_
    obtain ⟨-, hatom, -⟩ := Json.readValue_atom_carried id hrest hch h
    cases hatom <;> rfl
  | @str _ _ _ text rest hrest h =>
    rw [hd] at hrest h
    have hadvance := Cursor.length_advance hrest
    obtain ⟨text', htext, hsame⟩ := (Json.readString_carried id h).2 limit (by omega)
    cases hsame rfl
    rw [sourceWord]
    simp only [hrest, htext, part, sourceType]
    cases SourceType.ofWord? text with
    | none => exact .error _ _
    | some t => exact .ok _ _
  | arr hrest => exact other hrest (by decide) rfl
  | obj hrest => exact absurd (hd ▸ hrest) (hobj _)

/-- No value but null begins as null does. -/
theorem null_iff (h : ValueAt .strict depth d j e) :
    j = .null ↔ ∃ rest, d.settle.rest = 'n' :: rest := by
  have other {ch : Char} {rest : List Char} (hrest : d.settle.rest = ch :: rest) (hch : ch ≠ 'n')
      (hj : j ≠ .null) : j = .null ↔ ∃ rest, d.settle.rest = 'n' :: rest := by
    refine iff_of_false hj ?_
    rintro ⟨rest', hn⟩
    exact hch (List.cons.inj (hrest.symm.trans hn)).1
  cases h with
  | atom hrest hch h =>
    obtain ⟨-, hatom, -⟩ := Json.readValue_atom_carried id hrest hch h
    cases hatom with
    | null => exact iff_of_true rfl ⟨_, hrest⟩
    | bool hch => exact other hrest hch Json.noConfusion
    | num hch => exact other hrest hch Json.noConfusion
  | str hrest => exact other hrest (by decide) Json.noConfusion
  | arr hrest => exact other hrest (by decide) Json.noConfusion
  | obj hrest => exact other hrest (by decide) Json.noConfusion

theorem sourceType_null :
    sourceType (.obj [(name, .null)]) = (SourceType.ofWord? name).bind some :=
  (Option.bind_fun_some _).symm

/-- An object that is a source type has no other member, and nothing but null beside the word. -/
theorem sourceType_of_ne {k : Json} {members : List (String × Json)}
    (h : k ≠ .null ∨ members ≠ []) :
    sourceType (.obj ((name, k) :: members)) = (SourceType.ofWord? name).bind fun _ => none := by
  rw [Option.bind_fun_none]
  cases k <;> cases members <;> simp_all [sourceType]

/-- What begins with a brace is an object. -/
theorem members_of_brace (h : ValueAt .strict depth d j e)
    (hrest : d.settle.rest = '\x7b' :: rest) :
    ∃ members, j = .obj members ∧
      MembersAt .strict (depth + 1) true d.settle.advance members e := by
  have same {ch : Char} {rest' : List Char} (h : d.settle.rest = ch :: rest') : ch = '\x7b' :=
    (List.cons.inj (h.symm.trans hrest)).1
  cases h with
  | atom hrest' hch => exact absurd (same hrest') hch.2.2
  | str hrest' => exact absurd (same hrest') (by decide)
  | arr hrest' => exact absurd (same hrest') (by decide)
  | obj _ _ h => exact ⟨_, rfl, h⟩

/-- A source type that is not a mere word: the word, a colon, null and the closing brace. -/
theorem sourceObject_yields {members : List (String × Json)} (hrest : d.rest = '\x7b' :: rest)
    (hl : d.rest.length ≤ limit) (h : MembersAt .strict 2 true d.advance members e) :
    Yields (sourcePart limit d) (sourceType (.obj members)) e := by
  have hadvance := Cursor.length_advance hrest
  rw [sourcePart]
  simp only [hrest]
  cases h with
  | close hclose =>
    rw [sourceWord]
    simp only [hclose]
    exact .error _ _
  | @member _ _ _ _ f g k _ name j members _ hnext hquote hname hcolon h hmembers =>
    have hlength := Cursor.length_next? hnext
    cases hnext
    have hadvance' := Cursor.length_advance hquote
    obtain ⟨hf, hname⟩ := Json.readString_carried id hname
    obtain ⟨name', hname', hsame⟩ := hname limit (by omega)
    cases hsame rfl
    have hg := Json.length_readColon hcolon
    have hsettle := g.length_settle
    have hword : Yields (sourceWord limit d.advance.settle) (SourceType.ofWord? name) f := by
      rw [sourceWord]
      simp only [hquote, hname', part]
      cases SourceType.ofWord? name with
      | none => exact .error _ _
      | some t => exact .ok _ _
    -- as an object it is one word with null, and nothing behind it
    by_cases hnull : j = .null
    · obtain ⟨rest, hn⟩ := (null_iff h).1 hnull
      subst hnull
      have hread : Json.read .strict limit 2 g.settle = .ok (.null, k) :=
        read_strict h.settle (by omega)
      cases hmembers with
      | close hclose =>
        rw [sourceType_null]
        refine hword.bind fun t _ => ?_
        rw [colon_eq hcolon, ok_bind]
        simp only [hn, hread, part, ok_map, ok_bind, hclose]
        exact .ok _ _
      | member hnext =>
        obtain ⟨⟨rest, hcomma⟩, -⟩ := Cursor.of_next?_comma hnext
        rw [sourceType_of_ne (.inr (List.cons_ne_nil _ _))]
        refine hword.bind fun t _ => ?_
        rw [colon_eq hcolon, ok_bind]
        simp only [hn, hread, part, ok_map, ok_bind, hcomma]
        exact .error _ _
    · rw [sourceType_of_ne (.inl hnull)]
      refine hword.bind fun t _ => ?_
      rw [colon_eq hcolon, ok_bind]
      dsimp only
      split
      · exact absurd ((null_iff h).2 ⟨_, ‹_›⟩) hnull
      · exact .error _ _

/-- The source type of the program. -/
theorem sourcePart_yields (hd : d.settle = d) (hl : d.rest.length ≤ limit)
    (h : ValueAt .strict 1 d j e) : Yields (sourcePart limit d) (sourceType j) e := by
  by_cases hbrace : ∃ rest, d.rest = '\x7b' :: rest
  · obtain ⟨rest, hrest⟩ := hbrace
    obtain ⟨members, rfl, hmembers⟩ := members_of_brace h (hd.symm ▸ hrest)
    exact sourceObject_yields hrest hl (hd ▸ hmembers)
  · rw [sourcePart]
    split
    · exact absurd ⟨_, ‹_›⟩ hbrace
    · exact sourceWord_yields hd hl h fun rest hrest => hbrace ⟨rest, hrest⟩

/-- One member of the program is noted. -/
def programStep (o : Outlined) (m : String × Json) : Option Outlined :=
  if m.1 = "body" then (once stmtsOf o.body m.2).map fun body => { o with body }
  else if m.1 = "sourceType" then
    (once sourceType o.source m.2).map fun source => { o with source }
  else some o

/-- A member of the program is one of its two fields, or passed over. -/
theorem programMember_yields (o : Outlined) (hl : c.rest.length ≤ limit)
    (hcolon : Json.readColon c = .ok d) (h : ValueAt .strict 1 d j e) :
    Yields (programMember limit o name c) (programStep o (name, j)) e := by
  have hd : d.settle.rest.length ≤ limit := by
    have := d.length_settle
    have := Json.length_readColon hcolon
    omega
  unfold programMember programStep
  rw [colon_eq hcolon]
  split
  -- a second body is refused
  · cases hbody : o.body with
    | some body => exact .error _ _
    | none =>
      rw [once, Option.map_map]
      exact (bodyPart_yields d.settle_settle hd h.settle).map fun body =>
        { o with body := some body }
  · split
    -- a second source type is refused
    · cases hsource : o.source with
      | some source => exact .error _ _
      | none =>
        rw [once, Option.map_map]
        exact (sourcePart_yields d.settle_settle hd h.settle).map fun source =>
          { o with source := some source }
    · -- a member that the schema does not know
      obtain ⟨j', hread⟩ := read_lenient h.settle hd
      show Yields (part (Json.read .lenient limit 1 d.settle) >>= _) _ _
      rw [hread]
      exact .ok o e

/-- What is known of a program in the end is what its members `body` and `sourceType` say. -/
theorem foldlM_programStep (members : List (String × Json)) (o : Outlined) :
    members.foldlM programStep o
      = ((valuesOf "body" members).foldlM (once stmtsOf) o.body).bind fun body =>
          ((valuesOf "sourceType" members).foldlM (once sourceType) o.source).map fun source =>
            { body, source } := by
  induction members generalizing o with
  | nil => rfl
  | cons m members ih =>
    obtain ⟨name, j⟩ := m
    rw [List.foldlM_cons]
    -- the two names do not disturb each other, so their members can be read one list after the
    -- other
    by_cases hbody : name = "body"
    · subst hbody
      rw [Json.valuesOf_cons_self, Json.valuesOf_cons_of_ne (by decide), List.foldlM_cons,
        programStep, if_pos rfl]
      cases once stmtsOf o.body j with
      | none => rfl
      | some body => exact ih { o with body }
    · rw [Json.valuesOf_cons_of_ne hbody, programStep, if_neg hbody]
      by_cases hsource : name = "sourceType"
      · subst hsource
        rw [Json.valuesOf_cons_self, if_pos rfl, List.foldlM_cons]
        cases once sourceType o.source j with
        | none => cases (valuesOf "body" members).foldlM (once stmtsOf) o.body <;> rfl
        | some source => exact ih { o with source }
      · rw [Json.valuesOf_cons_of_ne hsource, if_neg hsource]
        exact ih o

/-- The program that is known in the end, unless its statements are missing. -/
def Outlined.program? (o : Outlined) : Option Program :=
  o.body.map fun body => { body, sourceType := o.source.getD .script }

/-- A program written as an object is what has been noted of its members in the end. -/
theorem ofJson?_obj (members : List (String × Json)) :
    Program.ofJson? (.obj members) = (members.foldlM programStep {}).bind Outlined.program? := by
  -- a budget for the whole document is enough for its body
  have stmts {k : Json} (hk : members.lookup "body" = some k) :
      listOf (readStmt (readers (Json.obj members).depth) .name) k = stmtsOf k :=
    (stmtsOf_eq ((lookup_depth hk).trans (Nat.le_succ _))).symm
  rw [foldlM_programStep, foldlM_once, foldlM_once]
  show (record _ _).bind (fun f => ((f.lookup "body").bind _).bind fun body =>
    (Fields.orElse f "sourceType" _ _).bind _) = _
  rw [record_obj]
  unfold Fields.orElse
  by_cases hone : ∀ name ∈ ["body", "sourceType"], (valuesOf name members).length ≤ 1
  · rw [if_pos hone, Option.bind_some]
    have hbody := hone "body" (by decide)
    have hsource := hone "sourceType" (by decide)
    rw [Json.lookup_eq_head?] at stmts ⊢
    rw [Json.lookup_eq_head?]
    generalize valuesOf "body" members = bodies at *
    generalize valuesOf "sourceType" members = sources at *
    -- at most one of each
    match bodies, sources with
    | [], [] => rfl
    | [], [t] =>
      dsimp only
      cases sourceType t <;> rfl
    | [k], [] =>
      rw [List.head?_cons, Option.bind_some, stmts rfl]
      dsimp only
      cases stmtsOf k <;> rfl
    | [k], [t] =>
      rw [List.head?_cons, Option.bind_some, stmts rfl]
      dsimp only [List.head?_cons]
      cases stmtsOf k <;> cases sourceType t <;> rfl
    | _ :: _ :: _, _ => exact absurd hbody (by simp)
    | _, _ :: _ :: _ => exact absurd hsource (by simp)
  -- a repeated name; reading the text finds it at the second member
  · rw [if_neg hone, Option.bind_none]
    match hbody : valuesOf "body" members, hsource : valuesOf "sourceType" members with
    | _ :: _ :: _, _ => rfl
    | [], _ :: _ :: _ => rfl
    | [k], _ :: _ :: _ =>
      dsimp only
      cases stmtsOf k <;> rfl
    | [], [] => simp [hbody, hsource] at hone
    | [], [_] => simp [hbody, hsource] at hone
    | [_], [] => simp [hbody, hsource] at hone
    | [_], [_] => simp [hbody, hsource] at hone

/-- A program written as an array: its statements, and perhaps its source type. -/
theorem ofJson?_arr (k : Json) (items : List Json) :
    Program.ofJson? (.arr (k :: items))
      = (stmtsOf k).bind fun body =>
          match items with
          | [] => some { body }
          | [t] => (sourceType t).map fun t => { body, sourceType := t }
          | _ => none := by
  have stmts : stmtsOf k = listOf (readStmt (readers (Json.arr (k :: items)).depth) .name) k :=
    stmtsOf_eq (Nat.le_succ_of_le (Nat.le_max_left ..))
  rw [stmts]
  match items with
  | [] => rfl
  | [t] =>
    refine Option.bind_congr' rfl fun body _ => ?_
    dsimp only
    rw [Option.map_eq_bind]
    rfl
  -- more than two items are refused
  | t :: j :: items =>
    have hlong : record ["body", "sourceType"] (.arr (k :: t :: j :: items)) = none := by
      rw [record, if_neg (by simp)]
    rw [Program.ofJson?, hlong]
    dsimp only
    cases listOf (readStmt _ .name) k <;> rfl

/-! ### Programs -/

/-- A program that is the array of its fields. -/
theorem placedProgram_yields (hl : c.rest.length ≤ limit) {items : List Json}
    (h : ItemsAt .strict 1 true c items e) :
    Yields (placedProgram limit c) (Program.ofJson? (.arr items)) e := by
  rw [placedProgram]
  dsimp only
  cases h with
  | close hclose =>
    simp only [hclose]
    exact .error _ _
  | @item _ _ _ _ f _ k items hnext hopen h hitems =>
    have hlength := Cursor.length_next? hnext
    have hf := h.length_lt
    cases hnext
    split
    · rename_i hnil
      simp [hnil] at hf
    · exact absurd ‹_› (hopen _)
    · rw [ofJson?_arr]
      refine (bodyPart_yields (Cursor.settle_settle _) (by omega) h).bind fun body _ => ?_
      dsimp only
      -- behind the body the list ends, or a source type follows
      cases hitems with
      | close hclose =>
        simp only [hclose]
        exact .ok _ _
      | @item _ _ _ _ g _ t items hnext hopen h hitems =>
        have hlength' := Cursor.length_next? hnext
        have hg := h.length_lt
        obtain ⟨⟨rest, hcomma⟩, rfl⟩ := Cursor.of_next?_comma hnext
        simp only [hcomma]
        split
        · rename_i hnil
          simp [hnil] at hg
        · exact absurd ‹_› (hopen _)
        · have hsource := sourcePart_yields (Cursor.settle_settle _)
            (by omega : f.settle.advance.settle.rest.length ≤ limit) h
          cases hitems with
          | close hclose =>
            show Yields _ ((sourceType t).map _) _
            rw [Option.map_eq_bind]
            refine hsource.bind fun t _ => ?_
            simp only [hclose]
            exact .ok _ _
          -- a third item
          | item hnext =>
            obtain ⟨⟨rest, hcomma⟩, -⟩ := Cursor.of_next?_comma hnext
            show Yields _ none _
            rw [← Option.bind_fun_none (sourceType t)]
            refine hsource.bind fun t _ => ?_
            simp only [hcomma]
            exact .error _ _

/-- The program is read from an object or from an array, and from nothing else. -/
theorem programPart_yields (hd : d.settle = d) (hl : d.rest.length ≤ limit)
    (h : ValueAt .strict 0 d j e) : Yields (programPart limit d) (Program.ofJson? j) e := by
  -- a program is an object or an array
  have other {ch : Char} {rest : List Char} (hrest : d.settle.rest = ch :: rest)
      (hch : ch ≠ '[' ∧ ch ≠ '\x7b') (hj : Program.ofJson? j = none) :
      Yields (programPart limit d) (Program.ofJson? j) e := by
    rw [hj, programPart]
    rw [hd] at hrest
    simp only [hrest]
    split
    · contradiction
    · exact absurd (List.cons.inj ‹_›).1 hch.2
    · exact absurd (List.cons.inj ‹_›).1 hch.1
    · exact .error _ _
  cases h with
  | atom hrest hch h =>
    refine other hrest hch.2 ?_
    obtain ⟨-, hatom, -⟩ := Json.readValue_atom_carried id hrest hch h
    cases hatom <;> rfl
  | str hrest => exact other hrest (by decide) rfl
  | arr hrest _ h =>
    rw [hd] at hrest h
    have hadvance := Cursor.length_advance hrest
    rw [programPart]
    simp only [hrest]
    exact placedProgram_yields (by omega) h
  | obj hrest _ h =>
    rw [hd] at hrest h
    have hadvance := Cursor.length_advance hrest
    rw [programPart, ofJson?_obj]
    simp only [hrest]
    refine (eachMember_yields (fun o _ _ _ _ _ hl hcolon h => programMember_yields o hl hcolon h) h
      (by omega : d.advance.rest.length ≤ limit) (limit + 1) {} (by omega)).bind fun o _ => ?_
    unfold Outlined.program?
    cases o.body with
    | none => exact .error _ _
    | some body => exact .ok _ _

end Load

/-- **Texts and documents.**  The program of a text that is a document is the program of this
document; where the document does not fit the schema, the text is refused. -/
theorem Program.ofText_eq_ofJson? {text : String} {j : Json} (h : Json.parse .strict text = .ok j) :
    (Program.ofText text).toOption = Program.ofJson? j := by
  obtain ⟨e, hvalue, hend⟩ := Json.parse_eq_ok_iff.1 h
  have hprogram := Load.programPart_yields (Json.Cursor.settle_settle _)
    (Json.Cursor.length_settle _) hvalue.settle
  rw [Program.ofText]
  dsimp only
  cases hj : Program.ofJson? j with
  | none =>
    rw [hj] at hprogram
    obtain ⟨f, hf⟩ := hprogram.eq_error
    rw [hf]
    rfl
  | some p =>
    rw [hj] at hprogram
    rw [hprogram.eq_ok]
    simp only [hend]
    rfl

end Estree
