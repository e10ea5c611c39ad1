import Mathlib
import Encumbrance.Proofs.Allocation.Settle

/-!
# Slicing a document

`Slicer.slice` rounds every slice of a document on its own, to the currency's `p` places, and
then settles the residual (`settle_settled`). This module follows a successful call from the
lines to the slices. The rounded slices are the amounts of `unroundedAmounts` rounded one by one
(`Slicer.rounded_ok`): the lines' own amounts, or for each line and each allocation share, the
line's amount times the share's weight. Lines and shares are checked not to be negative, so no
rounded slice is negative either.

Three statements follow, with exact sums of the lines, and of the total and the rounded slices.
* The slices add up to the line total rounded half to even, and each is a nonzero multiple of
  `10^-p` (`Slicer.slices_sum_to_rounded_total`).
* All slices are positive exactly when the rounded slices exceed the total by no more than one
  of them weighs (`Slicer.slices_pos_iff`). When many slices round up, none may be that large:
  four lines of `0.006` at two places give the slices `0.01, 0.01, 0.01, -0.01`.
* The residual is at most `(n + 1) / 2` units of the last place, `n` the number of rounded
  slices, plus the drift between the line total and the sum of the unrounded amounts; without
  an allocation there is no drift and the residual is at most `n` units (`Slicer.residual_le`).
  An allocation's shares may add up to more than its total, within the tolerance, and then the
  drift grows with the document: `1000000` spread over shares of `50` and `50.01` out of `100`
  leaves a residual of `100`.
-/

namespace Encumbrance

open Decimal

/-! ## Section 1: Traversals that succeed -/

section Traversal

variable {α β γ ε ε' : Type}

/-- A traversal succeeds exactly when every step does. -/
theorem mapM_ok_iff {f : α → Except ε β} {xs : List α} {ys : List β} :
    xs.mapM f = .ok ys ↔ List.Forall₂ (fun x y => f x = .ok y) xs ys := by
  induction xs generalizing ys with
  | nil =>
    constructor
    · intro h; cases h; exact .nil
    · intro h; cases h; rfl
  | cons x xs ih =>
    constructor
    · intro h
      rw [List.mapM_cons] at h
      obtain ⟨y, hy, h⟩ := bind_eq_ok h
      obtain ⟨ys', hys', h⟩ := bind_eq_ok h
      cases h
      exact .cons hy (ih.1 hys')
    · intro h
      cases h with
      | cons hy hys => rw [List.mapM_cons, hy, ih.2 hys]; rfl

/-- A second traversal of the same list whose steps succeed wherever the first one's do
    succeeds too, with results related pointwise. -/
theorem mapM_ok_of_forall₂ {f : α → Except ε β} {g : α → Except ε' γ} {R : β → γ → Prop}
    (hfg : ∀ x y, f x = .ok y → ∃ z, g x = .ok z ∧ R y z) {xs : List α} {ys : List β}
    (h : List.Forall₂ (fun x y => f x = .ok y) xs ys) :
    ∃ zs, xs.mapM g = .ok zs ∧ List.Forall₂ R ys zs := by
  induction h with
  | nil => exact ⟨[], rfl, .nil⟩
  | cons hy _ ih =>
    obtain ⟨z, hz, hR⟩ := hfg _ _ hy
    obtain ⟨zs, hzs, hRs⟩ := ih
    exact ⟨z :: zs, by rw [List.mapM_cons, hz, hzs]; rfl, .cons hR hRs⟩

theorem forall₂_forall_mem_right {R : α → β → Prop} {P : β → Prop} {xs : List α} {ys : List β}
    (h : List.Forall₂ R xs ys) (hP : ∀ x ∈ xs, ∀ y, R x y → P y) : ∀ y ∈ ys, P y := by
  induction h with
  | nil => simp
  | cons hxy _ ih =>
    intro y hy
    rcases List.mem_cons.1 hy with rfl | hy
    · exact hP _ List.mem_cons_self _ hxy
    · exact ih (fun x hx => hP x (List.mem_cons_of_mem _ hx)) y hy

theorem forall₂_forall_mem_left {R : α → β → Prop} {P : α → Prop} {xs : List α} {ys : List β}
    (h : List.Forall₂ R xs ys) (hP : ∀ y ∈ ys, ∀ x, R x y → P x) : ∀ x ∈ xs, P x :=
  forall₂_forall_mem_right (List.Forall₂.flip (R := flip R) h) fun y hy x hxy => hP y hy x hxy

theorem ok_of_toOption {x : Except ε α} {a : α} (h : x.toOption = some a) : x = .ok a := by
  cases x with
  | error e => cases h
  | ok b => cases h; rfl

/-- A computation whose result, read through `f`, is `b` succeeded with a value read as `b`. -/
theorem ok_of_toOption_map {x : Except ε α} {f : α → β} {b : β} (h : x.toOption.map f = some b) :
    ∃ a, x = .ok a ∧ f a = b := by
  cases x with
  | error e => cases h
  | ok a => exact ⟨a, rfl, Option.some.inj h⟩

end Traversal

/-- Fewer places than the room allows still leave room, as long as every amount fits them. -/
theorem Decimal.Room.lower {S T : ℕ} {xs : List Decimal} (h : Room S xs)
    (hsc : ∀ x ∈ xs, x.scale ≤ T) (hT : T ≤ S) : Room T xs where
  scale_le := hT.trans h.scale_le
  scales := hsc
  fits := by
    refine lt_of_le_of_lt (mul_le_mul_of_nonneg_left ?_ ?_) h.fits
    · exact pow_le_pow_right₀ (by norm_num) hT
    · exact List.sum_nonneg fun _ hy => by
        obtain ⟨_, _, rfl⟩ := List.mem_map.1 hy; exact abs_nonneg _

/-! ## Section 2: What the slicer checks -/

/-- What `Slicer.ensureReady` establishes of an allocation that slicing may use. -/
structure AllocationDocument.Ready (a : AllocationDocument) : Prop where
  total_pos : 0 < a.total.val
  lines_ne_nil : a.lines ≠ []
  shares_nonneg : ∀ t ∈ a.lines, 0 ≤ t.amount.val

/-- The amounts of a document's slices before each is rounded: the lines' own amounts, or for
    every line and every share of the allocation, the line's amount times the share's weight
    `share / total`, computed as the slicer computes them. -/
def unroundedAmounts (lines : List AmountLine) :
    Option AllocationDocument → Except ArithError (List Decimal)
  | none => pure (lines.map (·.amount))
  | some a => do
    let perLine ← lines.mapM fun l => a.lines.mapM fun t => do
      Decimal.mul l.amount (← Decimal.div t.amount a.total)
    pure perLine.flatten

namespace Slicer

variable {s : Slicer} {mode : SliceMode} {template : DimensionSource} {lines : List AmountLine}
  {allocation : Option AllocationDocument} {callerDefault : Option String}

theorem ensureReady_ready {a : AllocationDocument} (h : s.ensureReady a = .ok ()) : a.Ready := by
  unfold ensureReady at h
  dsimp only at h
  split_ifs at h with hstatus hempty htotal
  split at h
  · cases h
  · rename_i hfind
    refine ⟨?_, by simpa using hempty, fun t ht => ?_⟩
    · simpa [le_iff_val] using htotal
    · have : t.amount.signNegative = false := by simpa using List.find?_eq_none.1 hfind t ht
      exact val_nonneg_of_neg_false this

/-- A checked total is the rounded sum of lines none of which is negative. -/
theorem checkedTotal_ok {total : Decimal} (h : s.checkedTotal lines = .ok total) :
    (∀ l ∈ lines, 0 ≤ l.amount.val) ∧
      ∃ L, Decimal.sum (lines.map (·.amount)) = .ok L ∧ total = s.round L := by
  unfold checkedTotal at h
  split at h
  · cases h
  · rename_i hfind
    obtain ⟨L, hL, h⟩ := bind_eq_ok h
    refine ⟨fun l hl => ?_, L, liftArith_eq_ok hL, (Except.ok.inj h).symm⟩
    have : l.amount.isNegative = false := by simpa using List.find?_eq_none.1 hfind l hl
    exact not_lt.1 fun hneg => by simp [isNegative_iff.2 hneg] at this

/-- The rounded slices are the unrounded amounts, each rounded to the currency's places; an
    allocation they were spread over was ready. -/
theorem rounded_ok {total : Decimal} {pre : List Slice}
    (h : s.rounded mode template lines allocation callerDefault total = .ok pre) :
    (∀ a, allocation = some a → a.Ready) ∧ ∃ u, unroundedAmounts lines allocation = .ok u ∧
      List.Forall₂ (fun y z => y.amount = s.round z) pre u := by
  cases allocation with
  | none =>
    refine ⟨by simp, ?_⟩
    -- each line becomes one slice, its amount rounded
    have hstep : ∀ (l : AmountLine) (y : Slice),
        (do let key ← s.keyFor { template with account := l.account } callerDefault
            pure ⟨key, s.round l.amount⟩ : Except BudgetError Slice) = .ok y →
        ∃ z, (pure l.amount : Except ArithError Decimal) = .ok z ∧ y.amount = s.round z := by
      intro l y hy
      obtain ⟨key, -, hy⟩ := bind_eq_ok hy
      cases hy
      exact ⟨l.amount, rfl, rfl⟩
    obtain ⟨zs, hzs, hR⟩ := mapM_ok_of_forall₂ hstep (mapM_ok_iff.1 h)
    rw [List.mapM_pure] at hzs
    cases hzs
    exact ⟨_, rfl, hR⟩
  | some a =>
    unfold rounded at h
    obtain ⟨_, hready, h⟩ := bind_eq_ok h
    refine ⟨fun a' ha' => by cases ha'; exact ensureReady_ready hready, ?_⟩
    -- a document being locked is also checked against the allocation's total
    have hratio : s.sliceRatio template lines a callerDefault = .ok pre := by
      dsimp only at h
      split at h
      · obtain ⟨gap, -, h⟩ := bind_eq_ok h
        split at h
        · obtain ⟨_, hthrow, -⟩ := bind_eq_ok h; cases hthrow
        · exact h
      · exact h
    unfold sliceRatio at hratio
    obtain ⟨perLine, hper, h⟩ := bind_eq_ok hratio
    cases h
    -- each line is spread over the shares, each share's amount rounded
    obtain ⟨perLine', hper', hR⟩ := mapM_ok_of_forall₂
      (g := fun l => a.lines.mapM fun t => do Decimal.mul l.amount (← Decimal.div t.amount a.total))
      (R := List.Forall₂ fun y z => y.amount = s.round z) (fun l ys hys => by
        refine mapM_ok_of_forall₂ (fun t y hy => ?_) (mapM_ok_iff.1 hys)
        obtain ⟨w, hw, hy⟩ := bind_eq_ok hy
        obtain ⟨key, -, hy⟩ := bind_eq_ok hy
        obtain ⟨m, hm, hy⟩ := bind_eq_ok hy
        cases hy
        exact ⟨m, by rw [liftArith_eq_ok hw]; exact liftArith_eq_ok hm, rfl⟩)
      (mapM_ok_iff.1 hper)
    exact ⟨perLine'.flatten, by simp only [unroundedAmounts, hper']; rfl, List.rel_flatten hR⟩

/-- A successful slicing checked the total, rounded the slices, and settled them. -/
theorem slice_ok {out : List Slice} (h : s.slice mode template lines allocation callerDefault = .ok out) :
    ∃ total pre, s.checkedTotal lines = .ok total ∧
      s.rounded mode template lines allocation callerDefault total = .ok pre ∧
      settle pre total = .ok out := by
  obtain ⟨total, ht, h⟩ := bind_eq_ok h
  obtain ⟨pre, hp, h⟩ := bind_eq_ok h
  exact ⟨total, pre, ht, hp, liftArith_eq_ok h⟩

end Slicer

/-! ## Section 3: Unrounded and rounded amounts -/

section Amounts

variable {lines : List AmountLine} {allocation : Option AllocationDocument} {u : List Decimal}

/-- Lines and shares that are not negative give unrounded amounts that are not negative. -/
theorem unroundedAmounts_nonneg (hu : unroundedAmounts lines allocation = .ok u)
    (hl : ∀ l ∈ lines, 0 ≤ l.amount.val) (ha : ∀ a, allocation = some a → a.Ready) :
    ∀ z ∈ u, 0 ≤ z.val := by
  cases allocation with
  | none =>
    cases hu
    intro z hz
    obtain ⟨l, hl', rfl⟩ := List.mem_map.1 hz
    exact hl l hl'
  | some a =>
    have hready := ha a rfl
    obtain ⟨perLine, hper, hu⟩ := bind_eq_ok hu
    cases hu
    intro z hz
    obtain ⟨zs, hzs, hz⟩ := List.mem_flatten.1 hz
    -- every amount is a line's amount times a share's weight, both nonnegative
    refine forall₂_forall_mem_right (P := fun zs => ∀ z ∈ zs, 0 ≤ z.val) (mapM_ok_iff.1 hper)
      (fun l hl' zs hzs' => ?_) zs hzs z hz
    refine forall₂_forall_mem_right (mapM_ok_iff.1 hzs') (fun t ht z hz' => ?_)
    obtain ⟨w, hw, hm⟩ := bind_eq_ok hz'
    exact mul_val_nonneg hm (hl l hl')
      (div_val_nonneg hw (hready.shares_nonneg t ht) hready.total_pos)

/-- No unrounded amounts means no lines: a ready allocation has at least one share. -/
theorem unroundedAmounts_eq_nil (hu : unroundedAmounts lines allocation = .ok [])
    (ha : ∀ a, allocation = some a → a.Ready) : lines = [] := by
  cases allocation with
  | none => exact List.map_eq_nil_iff.1 (Except.ok.inj hu)
  | some a =>
    obtain ⟨perLine, hper, hu⟩ := bind_eq_ok hu
    have hflat : perLine.flatten = [] := (Except.ok.inj hu)
    cases hlines : lines with
    | nil => rfl
    | cons l ls =>
      rw [hlines] at hper
      cases (mapM_ok_iff.1 hper) with
      | @cons _ zs _ _ hzs _ =>
        -- the first line's amounts, one per share, are among none
        have hnil : zs = [] := List.flatten_eq_nil_iff.1 hflat zs List.mem_cons_self
        have hlen := (mapM_ok_iff.1 hzs).length_eq
        rw [hnil, List.length_nil, List.length_eq_zero_iff] at hlen
        exact absurd hlen (ha a rfl).lines_ne_nil

/-- Rounding amounts one by one moves their sum by at most half a unit of the last place
    for each amount. -/
theorem abs_sliceSum_sub_le {s : Slicer} {pre : List Slice}
    (h : List.Forall₂ (fun y z => y.amount = s.round z) pre u) :
    |sliceSum pre - (u.map val).sum| ≤ pre.length / (2 * 10 ^ s.precision) := by
  induction h with
  | nil => simp
  | @cons y z pre u hyz _ ih =>
    have hone : |y.amount.val - z.val| ≤ 1 / (2 * 10 ^ s.precision) := by
      rw [hyz, Slicer.round, val_roundTo]; exact abs_roundHalfEven_sub_le _ _
    have hsplit : sliceSum (y :: pre) - ((z :: u).map val).sum =
        (y.amount.val - z.val) + (sliceSum pre - (u.map val).sum) := by
      simp only [sliceSum, List.map_cons, List.sum_cons]; ring
    calc |sliceSum (y :: pre) - ((z :: u).map val).sum|
        ≤ |y.amount.val - z.val| + |sliceSum pre - (u.map val).sum| := by
          rw [hsplit]; exact abs_add_le _ _
      _ ≤ 1 / (2 * 10 ^ s.precision) + pre.length / (2 * 10 ^ s.precision) := add_le_add hone ih
      _ = (y :: pre).length / (2 * 10 ^ s.precision) := by
          rw [List.length_cons]; push_cast; ring

end Amounts

namespace Slicer

variable {s : Slicer} {mode : SliceMode} {template : DimensionSource} {lines : List AmountLine}
  {allocation : Option AllocationDocument} {callerDefault : Option String}

/-- Rounded slices of nonnegative amounts are nonnegative and at the currency's places. -/
theorem rounded_slices {total : Decimal} {pre : List Slice}
    (ht : s.checkedTotal lines = .ok total)
    (h : s.rounded mode template lines allocation callerDefault total = .ok pre) :
    ∀ y ∈ pre, 0 ≤ y.amount.val ∧ y.amount.scale ≤ s.precision := by
  obtain ⟨hready, u, hu, hR⟩ := rounded_ok h
  have hnn := unroundedAmounts_nonneg hu (checkedTotal_ok ht).1 hready
  refine forall₂_forall_mem_left hR fun z hz y hyz => ?_
  rw [hyz]
  exact ⟨roundTo_nonneg _ (hnn z hz), roundTo_scale_le _ _⟩

/-- When nothing is left to settle, the total was zero: there were no lines. -/
theorem total_eq_zero_of_rounded_nil {total : Decimal} (ht : s.checkedTotal lines = .ok total)
    (h : s.rounded mode template lines allocation callerDefault total = .ok []) : total.val = 0 := by
  obtain ⟨hready, u, hu, hR⟩ := rounded_ok h
  rw [List.forall₂_nil_left_iff.1 hR] at hu
  have hnil := unroundedAmounts_eq_nil hu hready
  subst hnil
  obtain ⟨-, L, hL, rfl⟩ := checkedTotal_ok ht
  cases hL
  rw [Slicer.round, val_roundTo, val_zero, roundHalfEven_zero]

end Slicer

/-! ## Section 4: The slices of a document -/

namespace Slicer

variable {s : Slicer} {mode : SliceMode} {template : DimensionSource} {lines : List AmountLine}
  {allocation : Option AllocationDocument} {callerDefault : Option String} {out : List Slice}

/-- Room for the settling of a slicing, read off its total and its rounded slices once both are
    computed. -/
theorem room_of_rounded {S : ℕ} {T : Decimal} {P : List Decimal}
    (hT : (s.checkedTotal lines).toOption = some T)
    (hP : (s.rounded mode template lines allocation callerDefault T).toOption.map
      (·.map (·.amount)) = some P) (hroom : Room S (T :: P)) :
    ∀ total pre, s.checkedTotal lines = .ok total →
      s.rounded mode template lines allocation callerDefault total = .ok pre →
      Room S (total :: pre.map (·.amount)) := by
  intro total pre ht hr
  rw [ht] at hT
  cases hT
  obtain ⟨pre', hpre', hP'⟩ := ok_of_toOption_map hP
  rw [hr] at hpre'
  cases hpre'
  rwa [hP']

/-- A slicer for amounts in cents over three cost centers of one company, allowing a cent of
    difference between an allocation's shares and its total. -/
def cents : Slicer where
  resolver :=
    { directory := [("CC-OPS", "ACME"), ("CC-SALES", "ACME"), ("CC-IT", "ACME")]
      calendar := []
      enforce := {}
      globalDefaultPeriod := none }
  precision := 2
  tolerance := Decimal.cent

/-- A document of the operations cost center that names its company and fiscal period. -/
def opsDocument : DimensionSource :=
  { company := some "ACME", fiscalPeriod := some "FY2026", costCenter := "CC-OPS", account := "",
    postingDate := ⟨2026, 5, 4⟩ }

/-- With exact sums, the slices of a document add up to its line total rounded half to even to
    the currency's places; none is zero, and each is a multiple of `10^-p`. So there are slices
    whenever the rounded total is not zero. -/
theorem slices_sum_to_rounded_total {S S' : ℕ}
    (h : s.slice mode template lines allocation callerDefault = .ok out)
    (hlines : Room S' (lines.map (·.amount)))
    (hroom : ∀ total pre, s.checkedTotal lines = .ok total →
      s.rounded mode template lines allocation callerDefault total = .ok pre →
      Room S (total :: pre.map (·.amount))) :
    sliceSum out = roundHalfEven s.precision (lines.map (·.amount.val)).sum ∧
      (∀ x ∈ out, x.amount.isZero = false ∧ x.amount.scale ≤ s.precision) ∧
      (roundHalfEven s.precision (lines.map (·.amount.val)).sum ≠ 0 → out ≠ []) := by
  obtain ⟨total, pre, ht, hr, hs⟩ := slice_ok h
  obtain ⟨-, L, hL, htotal⟩ := checkedTotal_ok ht
  -- the total is the exact line total, rounded
  have htv : total.val = roundHalfEven s.precision (lines.map (·.amount.val)).sum := by
    obtain ⟨c, hc, hcv, -⟩ := sum_exact hlines
    rw [hL] at hc; cases hc
    rw [htotal, Slicer.round, val_roundTo, hcv, List.map_map]; rfl
  -- what is settled is at the currency's places, so the room narrows to them
  have hscales : ∀ x ∈ total :: pre.map (·.amount), x.scale ≤ min s.precision S := by
    intro x hx
    refine le_min ?_ ((hroom total pre ht hr).scales x hx)
    rcases List.mem_cons.1 hx with rfl | hx
    · rw [htotal]; exact roundTo_scale_le _ _
    · obtain ⟨y, hy, rfl⟩ := List.mem_map.1 hx
      exact (rounded_slices ht hr y hy).2
  have hroomp := (hroom total pre ht hr).lower hscales (min_le_right _ _)
  have hempty : pre = [] → total.val = 0 := fun hnil => total_eq_zero_of_rounded_nil ht (hnil ▸ hr)
  have hsum := settle_sliceSum hs hroomp hempty
  have hsc := settle_scale_le hs hroomp hempty
  refine ⟨hsum.trans htv, fun x hx => ⟨(hsc x hx).1, (hsc x hx).2.trans (min_le_left _ _)⟩, ?_⟩
  intro hne hnil
  rw [← htv, ← hsum, hnil, sliceSum_nil] at hne
  exact hne rfl

/-- An allocation in two equal shares. -/
def halves : AllocationDocument :=
  { name := "AL-2", status := .approved, total := Decimal.ofNat 2,
    lines := [{ costCenter := "CC-OPS", amount := Decimal.ofNat 1 },
      { costCenter := "CC-SALES", amount := Decimal.ofNat 1 }] }

/-- Five cents, `0.05`. -/
def nickel : Decimal := (Decimal.make? false 5 2).getD Decimal.zero

/-- An invoice of five cents spread in halves: each half, `0.025`, rounds to the even `0.02`,
    and the last slice takes the residual cent. The slices `0.02, 0.03` add up to the total. -/
theorem nickel_in_halves_sums_exactly :
    ∃ out, cents.slice .secondary opsDocument [⟨"6100-Travel", nickel⟩] (some halves) none = .ok out ∧
      out.map (·.amount.toText) = ["0.02", "0.03"] ∧
      sliceSum out = roundHalfEven 2 (5 / 100) ∧
      (∀ x ∈ out, x.amount.isZero = false ∧ x.amount.scale ≤ 2) ∧
      (roundHalfEven 2 (5 / 100) ≠ 0 → out ≠ []) := by
  generalize hsl : cents.slice _ _ _ _ _ = r
  have htexts : r.toOption.map (·.map (·.amount.toText)) = some ["0.02", "0.03"] := by
    rw [← hsl]; decide +kernel
  obtain ⟨out, rfl, hshown⟩ := ok_of_toOption_map htexts
  have hlines : Room 2 (([⟨"6100-Travel", nickel⟩] : List AmountLine).map (·.amount)) :=
    ⟨by decide, by decide +kernel, by decide +kernel⟩
  -- the total is the nickel itself and each half rounds to two cents: room at two places
  have hsum := slices_sum_to_rounded_total hsl hlines
    (room_of_rounded (S := 2) (T := nickel)
      (P := [⟨false, 2, 2, by decide, by decide⟩, ⟨false, 2, 2, by decide, by decide⟩])
      (by decide +kernel) (by decide +kernel) ⟨by decide, by decide +kernel, by decide +kernel⟩)
  have hnickel : nickel = ⟨false, 5, 2, by decide, by decide⟩ := rfl
  have hval : (([⟨"6100-Travel", nickel⟩] : List AmountLine).map (·.amount.val)).sum = 5 / 100 := by
    simp [hnickel, val_eq]; norm_num
  rw [hval] at hsum
  exact ⟨out, rfl, hshown, hsum⟩

/-- With exact sums, the slices of a document are all positive exactly when its rounded slices
    exceed the total by no more than one of them weighs. -/
theorem slices_pos_iff {S : ℕ} (h : s.slice mode template lines allocation callerDefault = .ok out)
    (hroom : ∀ total pre, s.checkedTotal lines = .ok total →
      s.rounded mode template lines allocation callerDefault total = .ok pre →
      Room S (total :: pre.map (·.amount))) :
    ∃ total pre, s.checkedTotal lines = .ok total ∧
      s.rounded mode template lines allocation callerDefault total = .ok pre ∧
      ((∀ x ∈ out, 0 < x.amount.val) ↔
        sliceSum pre ≤ total.val ∨ ∃ y ∈ pre, sliceSum pre - total.val ≤ y.amount.val) := by
  obtain ⟨total, pre, ht, hr, hs⟩ := slice_ok h
  refine ⟨total, pre, ht, hr, settle_pos_iff hs (hroom total pre ht hr) ?_ ?_⟩
  · exact fun hnil => total_eq_zero_of_rounded_nil ht (hnil ▸ hr)
  · exact fun y hy => (rounded_slices ht hr y hy).1

/-- Half a unit, `0.5`. -/
def half : Decimal := (Decimal.make? false 5 1).getD Decimal.zero

/-- Six thousandths, `0.006`: less than a cent, and more than half of one. -/
def sixThousandths : Decimal := (Decimal.make? false 6 3).getD Decimal.zero

/-- Lines of `0.5` and four times `0.006` round to `0.50` and four cents, two cents over the
    total `0.52`. The last slice cannot take that, the largest one can: the slices are
    `0.48` and four cents, all positive. -/
theorem largest_slice_takes_residual :
    ∃ out, cents.slice .document opsDocument
        (⟨"6100-Travel", half⟩ :: List.replicate 4 ⟨"6100-Travel", sixThousandths⟩) none none = .ok out ∧
      out.map (·.amount.toText) = ["0.48", "0.01", "0.01", "0.01", "0.01"] ∧
      ∃ total pre, cents.checkedTotal
          (⟨"6100-Travel", half⟩ :: List.replicate 4 ⟨"6100-Travel", sixThousandths⟩) = .ok total ∧
        cents.rounded .document opsDocument
          (⟨"6100-Travel", half⟩ :: List.replicate 4 ⟨"6100-Travel", sixThousandths⟩) none none total =
          .ok pre ∧
        ((∀ x ∈ out, 0 < x.amount.val) ↔
          sliceSum pre ≤ total.val ∨ ∃ y ∈ pre, sliceSum pre - total.val ≤ y.amount.val) := by
  generalize hsl : cents.slice _ _ _ _ _ = r
  have htexts : r.toOption.map (·.map (·.amount.toText)) =
      some ["0.48", "0.01", "0.01", "0.01", "0.01"] := by
    rw [← hsl]; decide +kernel
  obtain ⟨out, rfl, hshown⟩ := ok_of_toOption_map htexts
  -- the total is `0.52`, the rounded slices `0.50` and four cents: room at two places
  exact ⟨out, rfl, hshown, slices_pos_iff hsl
    (room_of_rounded (S := 2) (T := ⟨false, 52, 2, by decide, by decide⟩)
      (P := [half, Decimal.cent, Decimal.cent, Decimal.cent, Decimal.cent])
      (by decide +kernel) (by decide +kernel) ⟨by decide, by decide +kernel, by decide +kernel⟩)⟩

/-- Four lines of `0.006` at two places: each rounds up to a cent, and the total `0.024` rounds
    to two cents. The residual of two cents is more than any slice weighs, so the largest slice,
    the last of four equal ones, is settled at `-0.01`. -/
theorem sub_cent_lines_settle_negative :
    ∃ out, cents.slice .document opsDocument (List.replicate 4 ⟨"6100-Travel", sixThousandths⟩)
        none none = .ok out ∧
      out.map (·.amount.toText) = ["0.01", "0.01", "0.01", "-0.01"] ∧
      ∃ x ∈ out, x.amount.val < 0 := by
  generalize hsl : cents.slice _ _ _ _ _ = r
  have htexts : r.toOption.map (·.map (·.amount.toText)) = some ["0.01", "0.01", "0.01", "-0.01"] := by
    rw [← hsl]; decide +kernel
  have hneg : r.toOption.map (·.any (·.amount.isNegative)) = some true := by
    rw [← hsl]; decide +kernel
  obtain ⟨out, rfl, hshown⟩ := ok_of_toOption_map htexts
  obtain ⟨_, ⟨⟩, hany⟩ := ok_of_toOption_map hneg
  obtain ⟨x, hx, hxneg⟩ := List.any_eq_true.1 hany
  exact ⟨out, rfl, hshown, x, hx, isNegative_iff.1 hxneg⟩

/-- The residual a slicing settles is at most half a unit of the last place for each rounded
    slice and one more for the total, plus the drift between the line total and the sum of the
    unrounded amounts. Without an allocation, and with an exact line total, there is no drift,
    and the residual is at most one unit for each rounded slice. -/
theorem residual_le (h : s.slice mode template lines allocation callerDefault = .ok out) :
    ∃ L total pre u, Decimal.sum (lines.map (·.amount)) = .ok L ∧ s.checkedTotal lines = .ok total ∧
      s.rounded mode template lines allocation callerDefault total = .ok pre ∧
      unroundedAmounts lines allocation = .ok u ∧
      |total.val - sliceSum pre| ≤
        (pre.length + 1) / (2 * 10 ^ s.precision) + |L.val - (u.map val).sum| ∧
      (allocation = none → ∀ S, Room S (lines.map (·.amount)) →
        |total.val - sliceSum pre| ≤ pre.length / 10 ^ s.precision) := by
  obtain ⟨total, pre, ht, hr, -⟩ := slice_ok h
  obtain ⟨-, L, hL, htotal⟩ := checkedTotal_ok ht
  obtain ⟨-, u, hu, hR⟩ := rounded_ok hr
  have hround : |total.val - L.val| ≤ 1 / (2 * 10 ^ s.precision) := by
    rw [htotal, Slicer.round, val_roundTo]; exact abs_roundHalfEven_sub_le _ _
  have hpre := abs_sliceSum_sub_le hR
  -- the residual splits into the total's rounding, the drift and the slices' rounding
  have hbound : |total.val - sliceSum pre| ≤
      (pre.length + 1) / (2 * 10 ^ s.precision) + |L.val - (u.map val).sum| := by
    have hsplit : total.val - sliceSum pre =
        (total.val - L.val + (L.val - (u.map val).sum)) - (sliceSum pre - (u.map val).sum) := by ring
    have h1 := abs_sub (total.val - L.val + (L.val - (u.map val).sum)) (sliceSum pre - (u.map val).sum)
    have h2 := abs_add_le (total.val - L.val) (L.val - (u.map val).sum)
    rw [← hsplit] at h1
    calc |total.val - sliceSum pre|
        ≤ 1 / (2 * 10 ^ s.precision) + |L.val - (u.map val).sum| +
          pre.length / (2 * 10 ^ s.precision) := by linarith
      _ = (pre.length + 1) / (2 * 10 ^ s.precision) + |L.val - (u.map val).sum| := by ring
  refine ⟨L, total, pre, u, hL, ht, hr, hu, hbound, ?_⟩
  rintro rfl S hroom
  -- without an allocation the unrounded amounts are the lines', whose sum is exact
  have hu' : u = lines.map (·.amount) := (Except.ok.inj hu).symm
  obtain ⟨c, hc, hcv, -⟩ := sum_exact hroom
  rw [hL] at hc; cases hc
  have hdrift : |L.val - (u.map val).sum| = 0 := by rw [hcv, hu', sub_self, abs_zero]
  rw [hdrift, add_zero] at hbound
  rcases Nat.eq_zero_or_pos pre.length with h0 | hpos
  · -- nothing rounded, nothing to settle
    have hnil : pre = [] := List.length_eq_zero_iff.1 h0
    rw [hnil, total_eq_zero_of_rounded_nil ht (hnil ▸ hr)]
    simp
  · refine hbound.trans ?_
    have hn : (1 : ℚ) ≤ pre.length := by exact_mod_cast hpos
    have hp : (0 : ℚ) < 10 ^ s.precision := by positivity
    rw [div_le_div_iff₀ (by positivity) hp]
    nlinarith

/-- Three lines of half a cent, `0.005`, each. -/
def halfCentLines : List AmountLine :=
  List.replicate 3 ⟨"6100-Travel", (Decimal.make? false 5 3).getD Decimal.zero⟩

/-- Three lines of half a cent each round to the even `0.00`, while their total `0.015` rounds
    to two cents: the residual of two cents, within the three cents the bound allows, goes to
    the last slice, and the two slices of zero are dropped. -/
theorem half_cent_lines_residual_bounded :
    ∃ out, cents.slice .document opsDocument halfCentLines none none =
        .ok out ∧ out.map (·.amount.toText) = ["0.02"] ∧
      ∃ L total pre u, Decimal.sum (halfCentLines.map (·.amount)) = .ok L ∧
        cents.checkedTotal halfCentLines = .ok total ∧
        cents.rounded .document opsDocument halfCentLines none none
          total = .ok pre ∧
        unroundedAmounts halfCentLines none = .ok u ∧
        |total.val - sliceSum pre| ≤
          (pre.length + 1) / (2 * 10 ^ cents.precision) + |L.val - (u.map val).sum| ∧
        ((none : Option AllocationDocument) = none →
          ∀ S, Room S (halfCentLines.map (·.amount)) →
          |total.val - sliceSum pre| ≤ pre.length / 10 ^ cents.precision) := by
  generalize hsl : cents.slice _ _ _ _ _ = r
  have htexts : r.toOption.map (·.map (·.amount.toText)) = some ["0.02"] := by
    rw [← hsl]; decide +kernel
  obtain ⟨out, rfl, hshown⟩ := ok_of_toOption_map htexts
  exact ⟨out, rfl, hshown, residual_le hsl⟩

/-- Shares of `50` and `50.01` out of an allocation total of `100`: within the cent of tolerance,
    and adding up to more than the total. -/
def driftingShares : AllocationDocument :=
  { name := "AL-1", status := .approved, total := Decimal.ofNat 100,
    lines := [{ costCenter := "CC-SALES", amount := Decimal.ofNat 50 },
      { costCenter := "CC-IT", amount := (Decimal.make? false 5001 2).getD Decimal.zero }] }

/-- An invoice of `1000000` spread over the drifting shares: its slices are rounded to
    `500000.00` and `500100.00`, a hundred over the total, far beyond two cents. -/
theorem share_drift_exceeds_bound :
    ∃ out total pre,
      cents.slice .secondary opsDocument [⟨"6100-Travel", Decimal.ofNat 1000000⟩]
        (some driftingShares) none = .ok out ∧
      cents.checkedTotal [⟨"6100-Travel", Decimal.ofNat 1000000⟩] = .ok total ∧
      cents.rounded .secondary opsDocument [⟨"6100-Travel", Decimal.ofNat 1000000⟩]
        (some driftingShares) none total = .ok pre ∧
      (pre.length : ℚ) / 10 ^ cents.precision < |total.val - sliceSum pre| := by
  generalize hsl : cents.slice _ _ _ _ _ = r
  have hsome : r.toOption.isSome := by rw [← hsl]; decide +kernel
  obtain ⟨out, hout⟩ := Option.isSome_iff_exists.1 hsome
  have hct : cents.checkedTotal [⟨"6100-Travel", Decimal.ofNat 1000000⟩] =
      .ok (Decimal.ofNat 1000000) := ok_of_toOption (by decide +kernel)
  generalize hr : cents.rounded .secondary opsDocument [⟨"6100-Travel", Decimal.ofNat 1000000⟩]
    (some driftingShares) none (Decimal.ofNat 1000000) = q
  have hP : q.toOption.map (·.map (·.amount)) =
      some [⟨false, 50000000, 2, by decide, by decide⟩, ⟨false, 50010000, 2, by decide, by decide⟩] := by
    rw [← hr]; decide +kernel
  obtain ⟨pre, rfl, hpre⟩ := ok_of_toOption_map hP
  have hlen : pre.length = 2 := by simpa using congrArg List.length hpre
  have hsum : sliceSum pre = 1000100 := by
    rw [sliceSum, show (pre.map fun x => x.amount.val) = (pre.map (·.amount)).map val by
      rw [List.map_map]; rfl, hpre]
    simp [val_eq]; norm_num
  refine ⟨out, _, pre, ok_of_toOption hout, hct, hr, ?_⟩
  rw [hlen, hsum]
  simp [val_eq, Decimal.ofNat, cents, mantissaLimit]
  norm_num

end Slicer

end Encumbrance
