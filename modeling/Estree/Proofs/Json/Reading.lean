/-
Estree/Proofs/Json/Reading.lean

A spelt document is read back, unless it is nested too deeply.

Whatever the layout, the reader gives the document that was spelt if there are no more containers in
one another than its policy allows, and else a fault (`settles_value`); there is no third case,
since up to the first container that is too deep the text is read as it was spelt.  The induction is
on the document, and each list of items or members is read from what is left of it.

Two things have to be shown of every list: that it is closed where the layout closes it, and that
what follows an item does not continue it.  The second is why the text behind a document takes part
in the statements (`Stops`).
-/
import Estree.Proofs.Json.Spelling
import Estree.Proofs.Json.Token

namespace Estree

namespace Json

/-! ### Depth and numbers of a document -/

mutual

/-- The number of containers in one another. -/
def nesting : Json → Nat
  | .arr items => nestingItems items + 1
  | .obj members => nestingMembers members + 1
  | _ => 0

/-- The greatest nesting of items. -/
def nestingItems : List Json → Nat
  | [] => 0
  | j :: rest => max j.nesting (nestingItems rest)

/-- The greatest nesting of the values of members. -/
def nestingMembers : List (String × Json) → Nat
  | [] => 0
  | (_, j) :: rest => max j.nesting (nestingMembers rest)

end

mutual

/-- All numbers are integers that the reader takes for such. -/
def Integral : Json → Prop
  | .num (.int k) => k.natAbs ≤ 2 ^ 63
  | .num (.float _) => False
  | .arr items => IntegralItems items
  | .obj members => IntegralMembers members
  | _ => True

/-- The same of all items. -/
def IntegralItems : List Json → Prop
  | [] => True
  | j :: rest => j.Integral ∧ IntegralItems rest

/-- The same of the values of all members. -/
def IntegralMembers : List (String × Json) → Prop
  | [] => True
  | (_, j) :: rest => j.Integral ∧ IntegralMembers rest

end

/-! ### What comes of a reading -/

/-- A reading that succeeds if the depth it needs is within the limit, and is at fault if not. -/
def Settles {α : Type} (limit depth : Nat) (r : Reading α) (a : α) (rest : List Char) : Prop :=
  (depth ≤ limit → Reads r a rest) ∧ (limit < depth → ∃ f, r = .error f)

section settles

variable {α β : Type} {limit m n : Nat} {mid rest : List Char} {a : α} {b : β} {r : Reading α}

/-- What reads at once settles with any number of steps. -/
theorem Reads.settles (h : Reads r a rest) (hn : n ≤ limit) : Settles limit n r a rest :=
  ⟨fun _ => h, fun hl => absurd hn (Nat.not_le.mpr hl)⟩

/-- Go on after a reading. -/
def andThen (r : Reading α) (k : α → Cursor → Reading β) : Reading β :=
  match r with
  | .error f => .error f
  | .ok (a, c) => k a c

/-- One reading after another needs as many steps as the longer of them. -/
theorem Settles.andThen {k : α → Cursor → Reading β} (h : Settles limit m r a mid)
    (hn : ∀ c : Cursor, c.rest = mid → Settles limit n (k a c) b rest) :
    Settles limit (max m n) (andThen r k) b rest := by
  rcases Nat.lt_or_ge limit m with hm | hm
  · obtain ⟨f, rfl⟩ := h.2 hm
    exact ⟨fun hl => by omega, fun _ => ⟨f, rfl⟩⟩
  · obtain ⟨c, rfl, hc⟩ := h.1 hm
    exact ⟨fun hl => (hn c hc).1 (by omega), fun hl => (hn c hc).2 (by omega)⟩

end settles

/-! ### First characters -/

section first

variable {policy : Policy} {fuel depth : Nat} {c : Cursor} {rest : List Char}

/-- An integer is written as its digits, with a sign in front if it is negative. -/
theorem numberToText_int (k : Int) :
    (numberToText (.int k)).toList
      = if k < 0 then '-' :: Nat.toDigits 10 k.natAbs else Nat.toDigits 10 k.natAbs := by
  by_cases hk : k < 0 <;> simp [numberToText, signed, Decimal.digitsText, hk]

/-- And read back as itself, as long as it fits. -/
theorem integer_natAbs {k : Int} (hk : k.natAbs ≤ 2 ^ 63) :
    integer (k < 0) k.natAbs = .num (.int k) := by
  by_cases hneg : k < 0
  · have h : ¬ (k.natAbs = 0 ∨ Nat.pow 2 63 < k.natAbs) := by
      rw [Nat.pow_eq]
      omega
    have hk' : -(k.natAbs : Int) = k := by omega
    simp only [integer, hneg, decide_true, if_true, h, if_false, hk']
  · have hk' : (k.natAbs : Int) = k := by omega
    simp [integer, hneg, hk']

/-- A number has at least one digit. -/
theorem exists_digits (n : Nat) :
    ∃ d ds, Nat.toDigits 10 n = d :: ds ∧ d.isDigit = true := by
  rcases e : Nat.toDigits 10 n with - | ⟨d, ds⟩
  · exact absurd e Nat.toDigits_ne_nil
  · exact ⟨d, ds, rfl, Nat.isDigit_of_mem_toDigits (b := 10) (n := n) (by decide) (by decide)
      (by rw [e]; simp)⟩

/-- The first character of a value is no white space and closes nothing. -/
theorem exists_head (L : Layout) (depth : Nat) {j : Json} (hj : j.Integral) :
    ∃ ch cs, spell L depth j = ch :: cs ∧ Cursor.isGap ch = false ∧ ch ≠ ']' := by
  rcases j with - | b | (k | x) | s | (- | ⟨j, items⟩) | (- | ⟨⟨name, j⟩, members⟩)
  case num.int =>
    obtain ⟨d, ds, hds, hd⟩ := exists_digits k.natAbs
    by_cases hneg : k < 0
    · exact ⟨'-', _, by rw [spell, numberToText_int, if_pos hneg], rfl, by decide⟩
    · refine ⟨d, ds, by rw [spell, numberToText_int, if_neg hneg, hds], ?_, ?_⟩
      · rcases e : Cursor.isGap d with - | -
        · rfl
        · rcases Cursor.isGap_iff.mp e with rfl | rfl | rfl | rfl <;> cases hd
      · rintro rfl
        cases hd
  case num.float => exact absurd hj (by simp [Integral])
  case bool => cases b <;> exact ⟨_, _, rfl, by decide, by decide⟩
  all_goals exact ⟨_, _, rfl, by decide, by decide⟩

/-- A number is read from its first character on, which is a digit or a sign. -/
theorem reads_int {k : Int} (hk : k.natAbs ≤ 2 ^ 63) (hr : Stops rest)
    (h : c.settle.rest = (numberToText (.int k)).toList ++ rest) :
    Reads (readValue policy (fuel + 1) depth c) (.num (.int k)) rest := by
  have hmax : k.natAbs ≤ maxSignificand := by
    rw [maxSignificand, Nat.pow_eq]
    omega
  rw [numberToText_int] at h
  rw [← integer_natAbs hk]
  by_cases hneg : k < 0
  · rw [if_pos hneg, List.cons_append] at h
    have hn := reads_natural policy true hmax hr
      (Cursor.rest_after c.settle '-' (Nat.toDigits 10 k.natAbs ++ rest))
    simpa [readValue, h, hneg] using hn
  · rw [if_neg hneg] at h
    have hn := reads_natural policy false hmax hr h
    obtain ⟨d, ds, hds, hd⟩ := exists_digits k.natAbs
    rw [hds, List.cons_append] at h
    rw [readValue]
    simp only [h, hneg, decide_false]
    -- a digit is the first character of no other value
    split
    case h_8 =>
      rw [if_pos hd]
      exact hn
    all_goals cases hd

/-- No character gets shorter by being escaped. -/
theorem length_le_flatMap (text : List Char) : text.length ≤ (text.flatMap escapeChar).length := by
  induction text with
  | nil => simp
  | cons ch text ih =>
    have hch : 0 < (escapeChar ch).length := by
      by_cases h : ch.toNat < 0x20 ∨ ch = '"' ∨ ch = '\\'
      · obtain ⟨tail, ht, -⟩ := reads_escape .strict h
        simp [ht]
      · simp [escapeChar_of_plain h]
    simp only [List.flatMap_cons, List.length_append, List.length_cons]
    omega

/-- A string between quotes, its opening quote apart, takes no more steps than it has characters. -/
theorem reads_quoted (policy : Policy) {s : String}
    (h : c.rest = s.toList.flatMap escapeChar ++ '"' :: rest) (hf : (quoteChars s).length ≤ fuel) :
    Reads (readString policy fuel c) s rest := by
  have hl := length_le_flatMap s.toList
  refine reads_string policy h ?_
  simp only [quoteChars, List.length_cons, List.length_append] at hf
  omega

/-- A string between quotes is read back. -/
theorem reads_str {s : String} (hf : (quoteChars s).length ≤ fuel)
    (h : c.settle.rest = quoteChars s ++ rest) :
    Reads (readValue policy (fuel + 1) depth c) (.str s) rest := by
  have h' : c.settle.rest = '"' :: (s.toList.flatMap escapeChar ++ '"' :: rest) := by
    simpa [quoteChars] using h
  obtain ⟨c', hc', hrest⟩ := reads_quoted policy
    (Cursor.rest_after c.settle '"' (s.toList.flatMap escapeChar ++ '"' :: rest)) hf
  exact ⟨c', by simp [readValue, h', hc'], hrest⟩

end first

/-! ### Lists of items and members -/

section lists

variable {policy : Policy} {fuel depth limit m n : Nat} {c : Cursor} {rest : List Char}

/-- The end of an array that has items. -/
theorem reads_close_items {acc : List Json} {gap : List Char} (hg : IsGap gap)
    (h : c.rest = gap ++ ']' :: rest) :
    Reads (readMoreItems policy (fuel + 1) depth acc c) (.arr acc.reverse) rest := by
  have hs : c.settle.rest = ']' :: rest := Cursor.rest_settle hg rfl h
  exact ⟨c.settle.advance, by simp [readMoreItems, hs], Cursor.rest_advance hs⟩

/-- One more item, after a comma and a gap. -/
theorem settles_more_items (j : Json) (mid : List Char) {acc : List Json} {gap cs : List Char}
    {ch : Char} {out : Json} (hg : IsGap gap) (hch : Cursor.isGap ch = false) (hne : ch ≠ ']')
    (h : c.rest = ',' :: (gap ++ ch :: cs))
    (hj : ∀ c : Cursor, c.rest = ch :: cs → Settles limit m (readValue policy fuel depth c) j mid)
    (hn : ∀ c : Cursor, c.rest = mid →
      Settles limit n (readMoreItems policy fuel depth (j :: acc) c) out rest) :
    Settles limit (max m n) (readMoreItems policy (fuel + 1) depth acc c) out rest := by
  have hs : c.settle.rest = ',' :: (gap ++ ch :: cs) :=
    Cursor.rest_settle isGap_nil rfl h
  have hs' : c.settle.advance.settle.rest = ch :: cs :=
    Cursor.rest_settle hg hch (Cursor.rest_advance hs)
  -- past the comma and the blanks behind it an item begins, since the list does not close
  have hstep : readMoreItems policy (fuel + 1) depth acc c =
      andThen (readValue policy fuel depth c.settle.advance.settle)
        fun j c => readMoreItems policy fuel depth (j :: acc) c := by
    rw [readMoreItems]
    simp only [hs, hs']
    split
    case h_1 e => cases e
    case h_2 e =>
      cases e
      exact absurd rfl hne
    case h_3 => rcases readValue policy fuel depth c.settle.advance.settle with f | ⟨j, c⟩ <;> rfl
  rw [hstep]
  exact (hj _ hs').andThen hn

/-- The first item, after a gap. -/
theorem settles_first_item (j : Json) (mid : List Char) {gap cs : List Char} {ch : Char}
    {out : Json} (hg : IsGap gap) (hch : Cursor.isGap ch = false) (hne : ch ≠ ']')
    (h : c.rest = gap ++ ch :: cs)
    (hj : ∀ c : Cursor, c.rest = ch :: cs → Settles limit m (readValue policy fuel depth c) j mid)
    (hn : ∀ c : Cursor, c.rest = mid →
      Settles limit n (readMoreItems policy fuel depth [j] c) out rest) :
    Settles limit (max m n) (readFirstItem policy (fuel + 1) depth c) out rest := by
  have hs : c.settle.rest = ch :: cs := Cursor.rest_settle hg hch h
  have hstep : readFirstItem policy (fuel + 1) depth c =
      andThen (readValue policy fuel depth c.settle)
        fun j c => readMoreItems policy fuel depth [j] c := by
    rw [readFirstItem]
    simp only [hs]
    split
    case h_1 e => cases e
    case h_2 e =>
      cases e
      exact absurd rfl hne
    case h_3 => rcases readValue policy fuel depth c.settle with f | ⟨j, c⟩ <;> rfl
  rw [hstep]
  exact (hj _ hs).andThen hn

theorem reads_no_items (h : c.rest = ']' :: rest) :
    Reads (readFirstItem policy (fuel + 1) depth c) (.arr []) rest := by
  have hs : c.settle.rest = ']' :: rest := Cursor.rest_settle isGap_nil rfl h
  exact ⟨c.settle.advance, by simp [readFirstItem, hs], Cursor.rest_advance hs⟩

/-- A member from its name on. -/
theorem settles_member (j : Json) (mid : List Char) {acc : List (String × Json)} {name : String}
    {cs : List Char} {out : Json} (hf : (quoteChars name).length ≤ fuel)
    (h : c.rest = name.toList.flatMap escapeChar ++ '"' :: ':' :: cs)
    (hj : ∀ c : Cursor, c.rest = cs → Settles limit m (readValue policy fuel depth c) j mid)
    (hn : ∀ c : Cursor, c.rest = mid →
      Settles limit n (readMoreMembers policy fuel depth ((name, j) :: acc) c) out rest) :
    Settles limit (max m n) (readMember policy (fuel + 1) depth acc c) out rest := by
  obtain ⟨c₁, hc₁, hrest₁⟩ := reads_quoted policy h hf
  have hs : c₁.settle.rest = ':' :: cs := Cursor.rest_settle isGap_nil rfl hrest₁
  have hcolon : readColon c₁ = .ok c₁.settle.advance := by simp [readColon, hs]
  have hstep : readMember policy (fuel + 1) depth acc c =
      andThen (readValue policy fuel depth c₁.settle.advance)
        fun j c => readMoreMembers policy fuel depth ((name, j) :: acc) c := by
    rw [readMember]
    simp only [hc₁, hcolon]
    rcases readValue policy fuel depth c₁.settle.advance with f | ⟨j, c⟩ <;> rfl
  rw [hstep]
  exact (hj _ (Cursor.rest_advance hs)).andThen hn

/-- One more member, after a comma and a gap. -/
theorem settles_more_members {acc : List (String × Json)} {gap cs : List Char} {out : Json}
    (hg : IsGap gap) (h : c.rest = ',' :: (gap ++ '"' :: cs))
    (hm : ∀ c : Cursor, c.rest = cs →
      Settles limit n (readMember policy fuel depth acc c) out rest) :
    Settles limit n (readMoreMembers policy (fuel + 1) depth acc c) out rest := by
  have hs : c.settle.rest = ',' :: (gap ++ '"' :: cs) := Cursor.rest_settle isGap_nil rfl h
  have hs' : c.settle.advance.settle.rest = '"' :: cs :=
    Cursor.rest_settle hg rfl (Cursor.rest_advance hs)
  have hstep : readMoreMembers policy (fuel + 1) depth acc c =
      readMember policy fuel depth acc c.settle.advance.settle.advance := by
    rw [readMoreMembers]
    simp only [hs, hs']
  rw [hstep]
  exact hm _ (Cursor.rest_advance hs')

/-- The first member, after a gap. -/
theorem settles_first_member {gap cs : List Char} {out : Json} (hg : IsGap gap)
    (h : c.rest = gap ++ '"' :: cs)
    (hm : ∀ c : Cursor, c.rest = cs →
      Settles limit n (readMember policy fuel depth [] c) out rest) :
    Settles limit n (readFirstMember policy (fuel + 1) depth c) out rest := by
  have hs : c.settle.rest = '"' :: cs := Cursor.rest_settle hg rfl h
  have hstep : readFirstMember policy (fuel + 1) depth c =
      readMember policy fuel depth [] c.settle.advance := by
    rw [readFirstMember]
    simp only [hs]
  rw [hstep]
  exact hm _ (Cursor.rest_advance hs)

/-- The end of an object that has members. -/
theorem reads_close_members {acc : List (String × Json)} {gap : List Char} (hg : IsGap gap)
    (h : c.rest = gap ++ '\x7d' :: rest) :
    Reads (readMoreMembers policy (fuel + 1) depth acc c) (.obj acc.reverse) rest := by
  have hs : c.settle.rest = '\x7d' :: rest := Cursor.rest_settle hg rfl h
  exact ⟨c.settle.advance, by simp [readMoreMembers, hs], Cursor.rest_advance hs⟩

theorem reads_no_members (h : c.rest = '\x7d' :: rest) :
    Reads (readFirstMember policy (fuel + 1) depth c) (.obj []) rest := by
  have hs : c.settle.rest = '\x7d' :: rest := Cursor.rest_settle isGap_nil rfl h
  exact ⟨c.settle.advance, by simp [readFirstMember, hs], Cursor.rest_advance hs⟩

end lists

/-! ### What follows a value -/

/-- A gap stops a number. -/
theorem stops_gap {gap rest : List Char} (hg : IsGap gap) (h : Stops rest) :
    Stops (gap ++ rest) := by
  rcases gap with - | ⟨g, gap⟩
  · exact h
  · intro ch hch
    cases hch
    rcases Cursor.isGap_iff.mp (hg g (by simp)) with rfl | rfl | rfl | rfl <;> decide

/-- What stands behind an item stops a number: a comma or the end of the array. -/
theorem stops_items {L : Layout} {depth : Nat} {items : List Json} {rest : List Char}
    (h : Stops rest) : Stops (spellItems L depth items ++ rest) := by
  rcases items with - | ⟨j, items⟩
  · simpa [spellItems] using h
  · intro ch hch
    simp only [spellItems, List.cons_append, List.head?_cons, Option.mem_some_iff] at hch
    subst hch
    decide

/-- What stands behind a member does, too. -/
theorem stops_members {L : Layout} {depth : Nat} {members : List (String × Json)} {rest : List Char}
    (h : Stops rest) : Stops (spellMembers L depth members ++ rest) := by
  rcases members with - | ⟨⟨name, j⟩, members⟩
  · simpa [spellMembers] using h
  · intro ch hch
    simp only [spellMembers, List.cons_append, List.head?_cons, Option.mem_some_iff] at hch
    subst hch
    decide

theorem stops_close {gap rest : List Char} {ch : Char} (hg : IsGap gap)
    (hch : ch = ']' ∨ ch = '\x7d') : Stops (gap ++ ch :: rest) := by
  refine stops_gap hg fun c hc => ?_
  cases hc
  rcases hch with rfl | rfl <;> decide

/-! ### Values -/

/-- The gap in front of a value is passed over, and nothing of the value is. -/
theorem rest_settle_spell {L : Layout} {depth : Nat} {c : Cursor} {gap rest : List Char} {j : Json}
    (hj : j.Integral) (hg : IsGap gap) (h : c.rest = gap ++ (spell L depth j ++ rest)) :
    c.settle.rest = spell L depth j ++ rest := by
  obtain ⟨ch, cs, hs, hch, -⟩ := exists_head L depth hj
  rw [hs, List.cons_append] at h ⊢
  exact Cursor.rest_settle hg hch h

section values

variable {policy : Policy} {limit : Nat}

/-- An opening bracket is passed if there is room for one more container, and is a fault if not. -/
theorem settles_opening (hp : policy.depth = some limit) {depth n : Nat} {r : Reading Json}
    {f : Fault} {out : Json} {rest : List Char} (hd : depth ≤ limit)
    (hr : depth + 1 ≤ limit → Settles limit (depth + 1 + n) r out rest) :
    Settles limit (depth + (n + 1)) (if policy.allows depth then r else .error f) out rest := by
  have hn : depth + (n + 1) = depth + 1 + n := by omega
  rw [hn]
  simp only [Policy.allows, hp, decide_eq_true_eq]
  rcases Nat.lt_or_ge depth limit with hlt | hge
  · rw [if_pos hlt]
    exact hr hlt
  · rw [if_neg (Nat.not_lt.mpr hge)]
    exact ⟨fun hl => by omega, fun _ => ⟨f, rfl⟩⟩

mutual

/-- A spelt value is read back, inside of `depth` containers, if the limit allows as many more as it
has in one another. -/
theorem settles_value (hp : policy.depth = some limit) (L : Layout) {depth fuel : Nat} {c : Cursor}
    {gap rest : List Char} (hd : depth ≤ limit) (hg : IsGap gap) (hr : Stops rest) :
    ∀ j : Json, j.Integral → c.rest = gap ++ (spell L depth j ++ rest) →
      (spell L depth j).length < fuel →
      Settles limit (depth + j.nesting) (readValue policy fuel depth c) j rest
  | .null => by
    intro hj h hf
    obtain ⟨fuel, rfl⟩ := Nat.exists_eq_add_one.mpr (Nat.zero_lt_of_lt hf)
    have hs := rest_settle_spell hj hg h
    refine Reads.settles ?_ hd
    simpa [readValue, hs, spell] using
      reads_word .null (Cursor.rest_after c.settle 'n' (['u', 'l', 'l'] ++ rest))
  | .bool b => by
    intro hj h hf
    obtain ⟨fuel, rfl⟩ := Nat.exists_eq_add_one.mpr (Nat.zero_lt_of_lt hf)
    have hs := rest_settle_spell hj hg h
    refine Reads.settles ?_ hd
    cases b with
    | true =>
      simpa [readValue, hs, spell] using
        reads_word (.bool true) (Cursor.rest_after c.settle 't' (['r', 'u', 'e'] ++ rest))
    | false =>
      simpa [readValue, hs, spell] using
        reads_word (.bool false) (Cursor.rest_after c.settle 'f' (['a', 'l', 's', 'e'] ++ rest))
  | .num (.int k) => by
    intro hj h hf
    obtain ⟨fuel, rfl⟩ := Nat.exists_eq_add_one.mpr (Nat.zero_lt_of_lt hf)
    have hs := rest_settle_spell hj hg h
    exact Reads.settles (reads_int hj hr hs) hd
  | .num (.float x) => fun hj => absurd hj (by simp [Integral])
  | .str s => by
    intro hj h hf
    obtain ⟨fuel, rfl⟩ := Nat.exists_eq_add_one.mpr (Nat.zero_lt_of_lt hf)
    have hs := rest_settle_spell hj hg h
    exact Reads.settles (reads_str (Nat.le_of_lt_succ hf) hs) hd
  | .arr [] => by
    intro hj h hf
    obtain ⟨fuel, rfl⟩ := Nat.exists_eq_add_one.mpr (Nat.zero_lt_of_lt hf)
    have hs : c.settle.rest = '[' :: ']' :: rest := rest_settle_spell hj hg h
    obtain ⟨fuel, rfl⟩ := Nat.exists_eq_add_one.mpr (Nat.lt_of_succ_lt_succ (Nat.lt_of_succ_lt hf))
    rw [readValue]
    simp only [hs]
    exact settles_opening hp hd fun hd' =>
      Reads.settles (reads_no_items (Cursor.rest_after _ _ _)) hd'
  | .arr (j :: items) => by
    intro hj h hf
    obtain ⟨ch, cs, hhead, hch, hne⟩ := exists_head L (depth + 1) hj.1
    have hlen : (spell L (depth + 1) j).length = cs.length + 1 := by rw [hhead]; rfl
    simp only [spell, List.length_cons, List.length_append, List.length_nil] at hf
    obtain ⟨fuel, rfl⟩ : ∃ n, fuel = n + 2 := ⟨fuel - 2, by omega⟩
    have hs := rest_settle_spell hj hg h
    simp only [spell, hhead, List.cons_append, List.append_assoc, List.nil_append] at hs
    have hmax : nestingItems (j :: items) = max j.nesting (nestingItems items) := rfl
    rw [readValue]
    simp only [hs]
    refine settles_opening hp hd fun hd' => ?_
    rw [hmax, ← Nat.add_max_add_left]
    -- the first item follows the bracket, each of the others a comma
    refine settles_first_item j (spellItems L (depth + 1) items ++ (L.line depth ++ ']' :: rest))
      (L.isGap_line _) hch hne (Cursor.rest_after _ _ _) ?_ ?_
    · intro c₁ hc₁
      refine settles_value hp L hd' isGap_nil ?_ j hj.1 ?_ (by omega)
      · exact stops_items (stops_close (L.isGap_line depth) (.inl rfl))
      · rw [hc₁, hhead]
        rfl
    · intro c₂ hc₂
      exact settles_items hp L hd' (L.isGap_line depth) items hj.2 hc₂ (by omega)
  | .obj [] => by
    intro hj h hf
    obtain ⟨fuel, rfl⟩ := Nat.exists_eq_add_one.mpr (Nat.zero_lt_of_lt hf)
    have hs : c.settle.rest = '\x7b' :: '\x7d' :: rest := rest_settle_spell hj hg h
    obtain ⟨fuel, rfl⟩ := Nat.exists_eq_add_one.mpr (Nat.lt_of_succ_lt_succ (Nat.lt_of_succ_lt hf))
    rw [readValue]
    simp only [hs]
    exact settles_opening hp hd fun hd' =>
      Reads.settles (reads_no_members (Cursor.rest_after _ _ _)) hd'
  | .obj ((name, j) :: members) => by
    intro hj h hf
    simp only [spell, List.length_cons, List.length_append, List.length_nil] at hf
    obtain ⟨fuel, rfl⟩ : ∃ n, fuel = n + 3 := ⟨fuel - 3, by simp only [quoteChars] at hf; omega⟩
    have hs := rest_settle_spell hj hg h
    simp only [spell, quoteChars, List.cons_append, List.append_assoc, List.nil_append] at hs
    have hmax : nestingMembers ((name, j) :: members) = max j.nesting (nestingMembers members) :=
      rfl
    rw [readValue]
    simp only [hs]
    refine settles_opening hp hd fun hd' => ?_
    rw [hmax, ← Nat.add_max_add_left]
    -- the first member follows the bracket, each of the others a comma
    refine settles_first_member (L.isGap_line _) (Cursor.rest_after _ _ _) fun c₁ hc₁ => ?_
    refine settles_member j (spellMembers L (depth + 1) members ++ (L.line depth ++ '\x7d' :: rest))
      (by omega) hc₁ ?_ ?_
    · intro c₂ hc₂
      refine settles_value hp L hd' L.isGap_space ?_ j hj.1 hc₂ (by omega)
      exact stops_members (stops_close (L.isGap_line depth) (.inr rfl))
    · intro c₃ hc₃
      exact settles_members hp L hd' (L.isGap_line depth) members hj.2 hc₃ (by omega)

/-- All items are read back, each in front of what stops it. -/
theorem settles_items (hp : policy.depth = some limit) (L : Layout) {depth fuel : Nat} {c : Cursor}
    {acc : List Json} {gap rest : List Char} (hd : depth ≤ limit) (hg : IsGap gap) :
    ∀ items : List Json, IntegralItems items →
      c.rest = spellItems L depth items ++ (gap ++ ']' :: rest) →
      (spellItems L depth items).length < fuel →
      Settles limit (depth + nestingItems items) (readMoreItems policy fuel depth acc c)
        (.arr (acc.reverse ++ items)) rest
  | [] => by
    intro hj h hf
    obtain ⟨fuel, rfl⟩ := Nat.exists_eq_add_one.mpr (Nat.zero_lt_of_lt hf)
    rw [List.append_nil]
    exact Reads.settles (reads_close_items hg h) hd
  | j :: items => by
    intro hj h hf
    -- the first character of the item tells the reader that the list goes on
    obtain ⟨ch, cs, hhead, hch, hne⟩ := exists_head L depth hj.1
    have hlen : (spell L depth j).length = cs.length + 1 := by rw [hhead]; rfl
    simp only [spellItems, List.length_cons, List.length_append] at hf
    obtain ⟨fuel, rfl⟩ := Nat.exists_eq_add_one.mpr (Nat.zero_lt_of_lt hf)
    simp only [spellItems, hhead, List.cons_append, List.append_assoc] at h
    have hmax : nestingItems (j :: items) = max j.nesting (nestingItems items) := rfl
    have hacc : acc.reverse ++ j :: items = (j :: acc).reverse ++ items := by simp
    rw [hmax, ← Nat.add_max_add_left, hacc]
    refine settles_more_items j (spellItems L depth items ++ (gap ++ ']' :: rest))
      (L.isGap_line _) hch hne h ?_ ?_
    · intro c₁ hc₁
      refine settles_value hp L hd isGap_nil ?_ j hj.1 ?_ (by omega)
      · exact stops_items (stops_close hg (.inl rfl))
      · rw [hc₁, hhead]
        rfl
    · intro c₂ hc₂
      exact settles_items hp L hd hg items hj.2 hc₂ (by omega)

/-- All members are read back in the same way. -/
theorem settles_members (hp : policy.depth = some limit) (L : Layout) {depth fuel : Nat}
    {c : Cursor} {acc : List (String × Json)} {gap rest : List Char} (hd : depth ≤ limit)
    (hg : IsGap gap) :
    ∀ members : List (String × Json), IntegralMembers members →
      c.rest = spellMembers L depth members ++ (gap ++ '\x7d' :: rest) →
      (spellMembers L depth members).length < fuel →
      Settles limit (depth + nestingMembers members) (readMoreMembers policy fuel depth acc c)
        (.obj (acc.reverse ++ members)) rest
  | [] => by
    intro hj h hf
    obtain ⟨fuel, rfl⟩ := Nat.exists_eq_add_one.mpr (Nat.zero_lt_of_lt hf)
    rw [List.append_nil]
    exact Reads.settles (reads_close_members hg h) hd
  | (name, j) :: members => by
    intro hj h hf
    simp only [spellMembers, List.length_cons, List.length_append] at hf
    -- a member takes one step for its name and one for its value
    obtain ⟨fuel, rfl⟩ : ∃ n, fuel = n + 2 := ⟨fuel - 2, by omega⟩
    simp only [spellMembers, quoteChars, List.cons_append, List.append_assoc, List.nil_append] at h
    have hmax : nestingMembers ((name, j) :: members) = max j.nesting (nestingMembers members) :=
      rfl
    have hacc : acc.reverse ++ (name, j) :: members = ((name, j) :: acc).reverse ++ members := by
      simp
    rw [hmax, ← Nat.add_max_add_left, hacc]
    refine settles_more_members (L.isGap_line _) h fun c₁ hc₁ => ?_
    refine settles_member j (spellMembers L depth members ++ (gap ++ '\x7d' :: rest))
      (by omega) hc₁ ?_ ?_
    · intro c₂ hc₂
      refine settles_value hp L hd L.isGap_space ?_ j hj.1 hc₂ (by omega)
      exact stops_members (stops_close hg (.inr rfl))
    · intro c₃ hc₃
      exact settles_members hp L hd hg members hj.2 hc₃ (by omega)

end

/-- The text of a document, with white space at neither end, is read as that document if it is not
nested too deeply, and is at fault if it is. -/
theorem parse_spell (hp : policy.depth = some limit) (L : Layout) {j : Json} (hj : j.Integral)
    {text : String} (ht : text.toList = spell L 0 j) :
    (j.nesting ≤ limit → parse policy text = .ok j) ∧
      (limit < j.nesting → ∃ f, parse policy text = .error f) := by
  have hv : Settles limit (0 + j.nesting)
      (read policy text.toList.length 0 ⟨text.toList, 1, 0⟩) j [] := by
    refine settles_value hp L (Nat.zero_le _) isGap_nil (by simp [Stops]) j hj ?_ ?_
    · simp [ht]
    · rw [ht]
      omega
  rw [Nat.zero_add] at hv
  constructor
  · intro hl
    obtain ⟨c, hc, hrest⟩ := hv.1 hl
    have he : expectEnd c = .ok () := by
      simp [expectEnd, Cursor.settle, hrest, Cursor.skipGaps]
    simp [parse, hc, he]
  · intro hl
    obtain ⟨f, hf⟩ := hv.2 hl
    exact ⟨f, by simp [parse, hf]⟩

end values

end Json

end Estree
