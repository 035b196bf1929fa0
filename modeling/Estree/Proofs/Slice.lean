/-
Estree/Proofs/Slice.lean

Parts of arrays and texts.

The member `slice` gives the part between two positions.  Whatever the arguments are, as long as
their numbers are found, the positions are in order and within the length (`relativeRange_apply`,
`place?_le`), so that nothing is asked for that is not there.  They are the positions that doubles
give (`Store.place?`), which integers give as well up to lengths of 2^53.

To cut at a position and to put the two parts together again gives what there was.  Of an array both
parts are new arrays, so that the position is found a second time in another store
(`Store.ExtendedBy.number?`).
-/
import Estree.Proofs.Decimal.Clamp
import Estree.Proofs.Extension
import Estree.Proofs.Text.Position

namespace Estree

/-- A call of the member `slice` of an array. -/
def sliceOfArray (id : ArrayId) (args : List Value) : Run Store Value :=
  Builtin.callArrayMethod .slice (.array id) args

/-- The position that an argument gives, worked out in doubles: the one that is meant where there is
no argument or it is undefined, and none where its number is not found. -/
def Store.place? (s : Store) (length : Nat) (arg : Option Value) (meant : Nat) : Option Nat :=
  match arg with
  | none | some .undefined => some meant
  | some v => (s.number? v).map (Double.clamped length)

variable {s : Store} {length start stop meant i : Nat} {arg : Option Value} {args : List Value}
variable {k : Value} {x : Float} {id : ArrayId} {t : String}

/-! ### The positions -/

theorem position_le (length : Nat) (x : Float) : position length x ≤ length := by
  unfold position
  split
  · split <;> omega
  · split <;> omega

theorem clamped_le (hn : length < 2 ^ 53) (x : Float) : Double.clamped length x ≤ length := by
  rw [← position_eq_clamped hn]
  exact position_le length x

/-- An argument that is not missing or undefined gives the position of its number. -/
theorem place?_of_ne_undefined (hk : k ≠ .undefined) (length meant : Nat) :
    s.place? length (some k) meant = (s.number? k).map (Double.clamped length) ∧
      positionOf length (some k) meant = do return position length (← Convert.number k) := by
  cases k
  case undefined => exact absurd rfl hk
  all_goals exact ⟨rfl, rfl⟩

/-- The position that is meant is what there is without an argument. -/
theorem arg_cases (s : Store) (length meant : Nat) (arg : Option Value) :
    (s.place? length arg meant = some meant ∧ positionOf length arg meant = pure meant) ∨
      ∃ k, arg = some k ∧ k ≠ .undefined := by
  cases arg with
  | none => exact .inl ⟨rfl, rfl⟩
  | some k =>
    by_cases hk : k = .undefined
    · rw [hk]
      exact .inl ⟨rfl, rfl⟩
    · exact .inr ⟨k, rfl, hk⟩

theorem place?_le (hn : length < 2 ^ 53) (hm : meant ≤ length)
    (h : s.place? length arg meant = some i) : i ≤ length := by
  rcases arg_cases s length meant arg with ⟨hplace, -⟩ | ⟨k, rfl, hk⟩
  · cases hplace.symm.trans h
    exact hm
  · rw [(place?_of_ne_undefined hk length meant).1] at h
    obtain ⟨x, -, rfl⟩ := Option.map_eq_some_iff.1 h
    exact clamped_le hn x

/-- There is a position wherever a number is found. -/
theorem exists_place (h : ∀ v, arg = some v → (s.number? v).isSome = true) (length meant : Nat) :
    ∃ i, s.place? length arg meant = some i := by
  rcases arg_cases s length meant arg with ⟨hplace, -⟩ | ⟨k, rfl, hk⟩
  · exact ⟨meant, hplace⟩
  · obtain ⟨x, hx⟩ := Option.isSome_iff_exists.1 (h k rfl)
    exact ⟨_, (place?_of_ne_undefined hk length meant).1.trans (congrArg _ hx)⟩

theorem positionOf_apply (hn : length < 2 ^ 53) (h : s.place? length arg meant = some i) :
    positionOf length arg meant s = .done i s := by
  rcases arg_cases s length meant arg with ⟨hplace, hpos⟩ | ⟨k, rfl, hk⟩
  · cases hplace.symm.trans h
    rw [hpos]
    rfl
  · obtain ⟨hplace, hpos⟩ := place?_of_ne_undefined (s := s) hk length meant
    obtain ⟨x, hx, rfl⟩ := Option.map_eq_some_iff.1 (hplace.symm.trans h)
    have hnumber : Convert.number k s = .done x s := by rw [Convert.number, Run.ofOption, hx]
    rw [hpos, Run.bind_done hnumber, position_eq_clamped hn]
    rfl

theorem relativeRange_apply (hn : length < 2 ^ 53)
    (hstart : s.place? length args[0]? 0 = some start)
    (hstop : s.place? length args[1]? length = some stop) :
    relativeRange length args s = .done (start, max start stop) s := by
  rw [relativeRange, Run.bind_done (positionOf_apply hn hstart),
    Run.bind_done (positionOf_apply hn hstop)]
  rfl

/-! ### The parts -/

theorem sliceOfArray_apply (h : relativeRange (s.items id).size args s = .done (start, stop) s) :
    sliceOfArray id args s
      = .done (.array s.arrays.size) (s.withArray ((s.items id).extract start stop)) :=
  Run.bind_done h

theorem sliceOfText_range (h : relativeRange t.toList.length args s = .done (start, stop) s) :
    sliceOfText t args s
      = .done (.str (String.ofList ((t.toList.drop start).take (stop - start)))) s :=
  Run.bind_done h

/-- What is selected from zero to a position, and from there on. -/
theorem relativeRange_halves (hn : length < 2 ^ 53) (hk : k ≠ .undefined)
    (hx : s.number? k = some x) :
    relativeRange length [.num 0, k] s = .done (0, Double.clamped length x) s ∧
      relativeRange length [k] s = .done (Double.clamped length x, length) s := by
  have hplace (meant : Nat) : s.place? length (some k) meant = some (Double.clamped length x) :=
    (place?_of_ne_undefined hk length meant).1.trans (congrArg _ hx)
  -- zero is a whole number, so that no double has to be worked out
  have hzero : s.place? length (some (.num 0)) 0 = some 0 := by
    have h0 : wholeNumber? 0 = some 0 := wholeNumber?_ofNat (Nat.two_pow_pos 53)
    rw [(place?_of_ne_undefined (by simp) length 0).1, ← funext (position_eq_clamped hn)]
    exact congrArg some ((position_of_whole h0 length).trans (Nat.zero_min length))
  constructor
  · rw [relativeRange_apply hn hzero (hplace length), Nat.max_eq_right (Nat.zero_le _)]
  · rw [relativeRange_apply hn (hplace 0) rfl, Nat.max_eq_right (clamped_le hn x)]

/-- The parts of an array before and after a position are its items. -/
theorem halves_of_array (hid : id < s.arrays.size) (hn : (s.items id).size < 2 ^ 53)
    (hk : k ≠ .undefined) (hx : s.number? k = some x) (hheld : s.Holds k) :
    ∃ s₁ s₂ first second, sliceOfArray id [.num 0, k] s = .done (.array first) s₁ ∧
      sliceOfArray id [k] s₁ = .done (.array second) s₂ ∧
      s₂.items first ++ s₂.items second = s.items id ∧ s₂.items id = s.items id := by
  -- the place of the second new array is right behind that of the first
  let i := Double.clamped (s.items id).size x
  let s₁ := s.withArray ((s.items id).extract 0 i)
  let s₂ := s₁.withArray ((s.items id).extract i (s.items id).size)
  have h₁ : s.ExtendedBy s₁ := s.extendedBy_withArray _
  have h₂ : s₁.ExtendedBy s₂ := s₁.extendedBy_withArray _
  have hplaces : s.arrays.size < s₁.arrays.size := (s.size_withArray _).symm ▸ Nat.lt_succ_self _
  have hitems : s₁.items id = s.items id := h₁.items hid
  have hfirst := (relativeRange_halves hn hk hx).1
  -- the number is asked for again beside the first part, and is the same there
  have hsecond := (relativeRange_halves hn hk (h₁.number? hheld hx)).2
  rw [← hitems] at hsecond
  refine ⟨s₁, s₂, s.arrays.size, s₁.arrays.size, sliceOfArray_apply hfirst, ?_, ?_, ?_⟩
  · rw [sliceOfArray_apply hsecond, hitems]
  · rw [h₂.items hplaces, s.items_withArray, s₁.items_withArray, Array.extract_append_extract,
      Nat.zero_min, Nat.max_eq_right (clamped_le hn x), Array.extract_size]
  · rw [h₂.items (hid.trans hplaces), hitems]

/-- The parts of a text before and after a position are the text. -/
theorem halves_of_text (hn : t.toList.length < 2 ^ 53) (hk : k ≠ .undefined)
    (hx : s.number? k = some x) :
    ∃ first second, sliceOfText t [.num 0, k] s = .done (.str first) s ∧
      sliceOfText t [k] s = .done (.str second) s ∧ first ++ second = t := by
  obtain ⟨hfirst, hsecond⟩ := relativeRange_halves hn hk hx
  refine ⟨_, _, sliceOfText_range hfirst, sliceOfText_range hsecond, ?_⟩
  rw [List.drop_zero, Nat.sub_zero, List.take_of_length_le (Nat.le_of_eq List.length_drop),
    ← String.ofList_append, List.take_append_drop, String.ofList_toList]

/-! ### Any arguments -/

/-- **A slice is within, and a position parts in two.**  For a length below 2^53, and arguments the
first two of which have a number or are missing:

The positions are in order and within the length, and `slice` gives what lies between them, of an
array as a new array beside which everything is as it was.  Any number, but not undefined, parts an
array or a text in two: what is before it and what is from it on are together what there was. -/
theorem slice_is_within_and_parts_in_two (s : Store) :
    (∀ length args, length < 2 ^ 53 → (∀ v ∈ args.take 2, (s.number? v).isSome = true) →
      ∃ start stop, start ≤ stop ∧ stop ≤ length ∧
        s.place? length args[0]? 0 = some start ∧
        (s.place? length args[1]? length).map (max start) = some stop ∧
        relativeRange length args s = .done (start, stop) s ∧
        (∀ id, id < s.arrays.size → (s.items id).size = length →
          ∃ s', s' = s.withArray ((s.items id).extract start stop) ∧
            sliceOfArray id args s = .done (.array s.arrays.size) s' ∧
            s'.items id = s.items id) ∧
        ∀ t : String, t.toList.length = length → sliceOfText t args s
          = .done (.str (String.ofList ((t.toList.drop start).take (stop - start)))) s) ∧
    ∀ k x, k ≠ .undefined → s.number? k = some x →
      (∀ id, id < s.arrays.size → (s.items id).size < 2 ^ 53 → s.Holds k →
        ∃ s₁ s₂ first second, sliceOfArray id [.num 0, k] s = .done (.array first) s₁ ∧
          sliceOfArray id [k] s₁ = .done (.array second) s₂ ∧
          s₂.items first ++ s₂.items second = s.items id ∧ s₂.items id = s.items id) ∧
      ∀ t : String, t.toList.length < 2 ^ 53 →
        ∃ first second, sliceOfText t [.num 0, k] s = .done (.str first) s ∧
          sliceOfText t [k] s = .done (.str second) s ∧ first ++ second = t := by
  refine ⟨fun length args hn hargs => ?_, fun k x hk hx => ⟨fun id hid hn hheld =>
    halves_of_array hid hn hk hx hheld, fun t hn => halves_of_text hn hk hx⟩⟩
  have hnumber {i : Nat} (hi : i < 2) (v : Value) (hv : args[i]? = some v) :
      (s.number? v).isSome = true :=
    hargs v (List.mem_of_getElem? ((List.getElem?_take_of_lt hi).trans hv))
  -- each position is found if its argument is a number
  obtain ⟨start, hstart⟩ := exists_place (hnumber (Nat.zero_lt_two)) length 0
  obtain ⟨stop, hstop⟩ := exists_place (hnumber (Nat.one_lt_two)) length length
  have hrange := relativeRange_apply hn hstart hstop
  have hwithin : max start stop ≤ length :=
    Nat.max_le.2 ⟨place?_le hn (Nat.zero_le _) hstart, place?_le hn (Nat.le_refl _) hstop⟩
  refine ⟨start, max start stop, Nat.le_max_left .., hwithin, hstart, congrArg _ hstop, hrange,
    ?_, ?_⟩
  · rintro id hid rfl
    exact ⟨_, rfl, sliceOfArray_apply hrange, (s.extendedBy_withArray _).items hid⟩
  · rintro t rfl
    exact sliceOfText_range hrange

/-- An array with three items. -/
def threeItems : Store where
  arrays := #[#[.num 1, .num 2, .num 3]]

/-- Two items and two characters from the end, where a position is counted from; and both are parted
in two at -1.5, which is in front of the last. -/
theorem three_items_and_letters_are_sliced :
    sliceOfArray 0 [.num (-2)] threeItems
      = .done (.array 1) (threeItems.withArray #[.num 2, .num 3]) ∧
    sliceOfText "añ😀" [.str "-2", .undefined] threeItems = .done (.str "ñ😀") threeItems ∧
    threeItems.Holds (.num (-1.5)) ∧
    (∃ s₁ s₂ first second, sliceOfArray 0 [.num 0, .num (-1.5)] threeItems
        = .done (.array first) s₁ ∧
      sliceOfArray 0 [.num (-1.5)] s₁ = .done (.array second) s₂ ∧
      s₂.items first ++ s₂.items second = #[.num 1, .num 2, .num 3]) ∧
    ∃ first second, sliceOfText "añ😀" [.num 0, .num (-1.5)] threeItems
        = .done (.str first) threeItems ∧
      sliceOfText "añ😀" [.num (-1.5)] threeItems = .done (.str second) threeItems ∧
      first ++ second = "añ😀" := by
  have hheld : threeItems.Holds (.num (-1.5)) := Store.holds_of_not_reference rfl
  obtain ⟨hslice, hhalves⟩ := slice_is_within_and_parts_in_two threeItems
  obtain ⟨harray, htext⟩ := hhalves (.num (-1.5)) _ (by simp) rfl
  obtain ⟨_, _, -, -, hstart, hstop, -, hitems, -⟩ :=
    hslice 3 [.num (-2)] (by decide) (by simp [Store.number?])
  obtain ⟨_, _, -, -, hstart', hstop', -, -, hletters⟩ :=
    hslice 3 [.str "-2", .undefined] (by decide) (by simp [Store.number?])
  -- positions from the end are clamped by floating point, so they are computed
  have hminus : Double.clamped 3 (-2) = 1 := by decide +kernel
  have hminus' : Double.clamped 3 (numberOfText "-2") = 1 := by decide +kernel
  cases hstart.symm.trans (congrArg some hminus)
  cases hstart'.symm.trans (congrArg some hminus')
  cases hstop
  cases hstop'
  obtain ⟨_, rfl, h, -⟩ := hitems 0 (by decide) rfl
  obtain ⟨s₁, s₂, first, second, hfirst, hsecond, happend, -⟩ :=
    harray 0 (by decide) (by decide) hheld
  exact ⟨h, hletters _ rfl, hheld, ⟨s₁, s₂, first, second, hfirst, hsecond, happend⟩,
    htext _ (by decide)⟩

end Estree
