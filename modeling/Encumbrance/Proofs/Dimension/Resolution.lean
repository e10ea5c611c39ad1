import Mathlib
import Encumbrance.Dimension.Resolve
import Encumbrance.Proofs.Dimension.Placement

/-! # What resolution makes of document fields

    Resolution trims every value it takes from a document or a default, and skips a blank one.
    Two facts follow.

    * **Canonical keys.** A text is canonical when it is not empty and trimming leaves it as it
      is. The cost center, account, project and branch of a resolved key always are; so are the
      company and the fiscal period when they come from the document or a default. A company
      taken from the directory is only checked not to be blank, and a period taken from the
      calendar is not checked at all: both are used as stored. So a resolved key is canonical
      whenever the reference data is (`Resolver.resolve_canonical`), and a padded owner in the
      directory yields a padded company (`Resolver.padded_owner_leaks`).
    * **Padding does not matter.** Resolution sees only the trimmed values, a blank one as an
      absent one. Two documents and defaults that agree after trimming resolve to the same key,
      or both fail on the same dimension (`Resolver.resolve_ignores_padding`); only the untrimmed
      cost center and account that a failure quotes may differ.
-/

namespace Encumbrance

/-! ## Section 1: Trimmed text -/

namespace Text

theorem trim_eq (s : String) :
    trim s = String.ofList ((s.toList.dropWhile isWhite).rdropWhile isWhite) := rfl

/-- Trimming twice trims once. -/
theorem trim_trim (s : String) : trim (trim s) = trim s := by
  rw [trim_eq s, trim_eq, String.toList_ofList]
  -- what is left after trimming the front keeps its first character when the back is trimmed
  have hfront : ((s.toList.dropWhile isWhite).rdropWhile isWhite).dropWhile isWhite =
      (s.toList.dropWhile isWhite).rdropWhile isWhite := by
    rw [List.dropWhile_eq_self_iff]
    intro hl
    have hne := List.ne_nil_of_length_pos hl
    rw [List.getElem_zero, (List.rdropWhile_prefix isWhite _).head hne,
      List.head_dropWhile_not isWhite]
    simp
  rw [hfront, List.rdropWhile_idempotent]

/-- A canonical text: not empty, and trimming leaves it as it is. -/
def Canonical (s : String) : Prop := s ≠ "" ∧ trim s = s

instance : DecidablePred Canonical := fun s => inferInstanceAs (Decidable (s ≠ "" ∧ trim s = s))

/-- The trimmed text of an optional field, absent when the field is absent or blank. -/
def present (o : Option String) : Option String := o.bind nonBlank?

theorem nonBlank?_congr {s t : String} (h : trim s = trim t) : nonBlank? s = nonBlank? t := by
  unfold nonBlank?; rw [h]

/-- What `nonBlank?` keeps is canonical. -/
theorem canonical_of_nonBlank? {s t : String} (h : nonBlank? s = some t) : Canonical t := by
  unfold nonBlank? at h
  dsimp only at h
  split at h
  · cases h
  · rename_i hne
    cases h
    exact ⟨fun he => hne (by rw [he]; rfl), trim_trim s⟩

theorem canonical_of_present {o : Option String} {t : String} (h : present o = some t) :
    Canonical t := by
  obtain ⟨s, -, hs⟩ := Option.bind_eq_some_iff.1 h
  exact canonical_of_nonBlank? hs

/-- A text that is not blank is not empty. -/
theorem ne_empty_of_isBlank {s : String} (h : isBlank s = false) : s ≠ "" := by
  rintro rfl
  exact absurd h (by decide)

end Text

/-! ## Section 2: Where a resolved key comes from -/

/-- The owner the directory gives a cost center is one of the directory's owners. -/
theorem Resolver.companyOf_mem {r : Resolver} {cc c : String} (h : r.companyOf cc = some c) :
    ∃ e ∈ r.directory, e.2 = c := by
  obtain ⟨e, he, rfl⟩ := Option.map_eq_some_iff.1 h
  exact ⟨e, List.mem_of_find?_eq_some he, rfl⟩

/-- The period the calendar gives is the name of one of its periods. -/
theorem FiscalCalendar.periodFor_mem {cal : FiscalCalendar} {company : String} {d : Date}
    {n : String} (h : cal.periodFor company d = some n) : ∃ p ∈ cal, p.name = n := by
  rw [FiscalCalendar.periodFor, FiscalCalendar.ownOrShared_eq, Option.none_or] at h
  rcases Option.or_eq_some_iff.1 h with hown | ⟨-, hshared⟩
  · -- a period of the company's own
    obtain ⟨p, hp, rfl⟩ := Option.map_eq_some_iff.1 hown
    exact ⟨p, List.mem_of_mem_filter (List.mem_of_find?_eq_some hp), rfl⟩
  · -- else the first shared period
    obtain ⟨p, hp, rfl⟩ := Option.map_eq_some_iff.1 hshared
    exact ⟨p, List.mem_of_mem_filter (List.mem_of_mem_head? hp), rfl⟩

/-- The first of four fallbacks that gives a value is one of them. -/
theorem orElse_chain_eq_some {α : Type} {a b c d : Option α} {x : α}
    (h : (a.orElse fun _ => b.orElse fun _ => c.orElse fun _ => d) = some x) :
    a = some x ∨ b = some x ∨ c = some x ∨ d = some x := by
  cases a <;> cases b <;> cases c <;> simp_all [Option.orElse]

/-- Where each field of a resolved key comes from: the trimmed cost center and account; the
    document's trimmed company, or else the stored owner of the cost center, which is not
    blank; the trimmed period of the document, the caller or the settings, or else the
    calendar's period; the trimmed project and branch when they are enforced. -/
theorem Resolver.resolve_eq_ok {r : Resolver} {src : DimensionSource} {cd : Option String}
    {k : DimensionKey} (h : r.resolve src cd = .ok k) :
    Text.nonBlank? src.costCenter = some k.costCenter ∧
    Text.nonBlank? src.account = some k.account ∧
    (Text.present src.company = some k.company ∨
      (Text.present src.company = none ∧ r.companyOf k.costCenter = some k.company ∧
        Text.isBlank k.company = false)) ∧
    (Text.present src.fiscalPeriod = some k.fiscalPeriod ∨ Text.present cd = some k.fiscalPeriod ∨
      Text.present r.globalDefaultPeriod = some k.fiscalPeriod ∨
      r.calendar.periodFor k.company src.postingDate = some k.fiscalPeriod) ∧
    k.project = (if r.enforce.project then Text.present src.project else none) ∧
    k.branch = (if r.enforce.branch then Text.present src.branch else none) := by
  unfold Resolver.resolve at h
  cases hcc : Text.nonBlank? src.costCenter with
  | none => simp only [hcc] at h; cases h
  | some cc =>
  cases hacct : Text.nonBlank? src.account with
  | none => simp only [hcc, hacct] at h; cases h
  | some acct =>
  simp only [hcc, hacct] at h
  -- the company is the document's own, else the cost center's owner when it is not blank;
  -- either way the fiscal period is looked up next
  cases hsc : src.company.bind Text.nonBlank? with
  | some c =>
    simp only [hsc] at h
    split at h
    case h_2 => cases h
    rename_i period hperiod
    cases h
    exact ⟨rfl, rfl, .inl hsc, orElse_chain_eq_some hperiod, rfl, rfl⟩
  | none =>
    cases hown : (r.companyOf cc).filter (fun x => !Text.isBlank x) with
    | none => simp only [hsc, hown] at h; cases h
    | some c =>
      simp only [hsc, hown] at h
      obtain ⟨hc, hblank⟩ := Option.filter_eq_some_iff.1 hown
      split at h
      case h_2 => cases h
      rename_i period hperiod
      cases h
      exact ⟨rfl, rfl, .inr ⟨hsc, hc, by simpa using hblank⟩, orElse_chain_eq_some hperiod, rfl, rfl⟩

/-! ## Section 3: Canonical keys -/

/-- Every dimension of the key is canonical text. -/
structure DimensionKey.Canonical (k : DimensionKey) : Prop where
  company : Text.Canonical k.company
  fiscalPeriod : Text.Canonical k.fiscalPeriod
  costCenter : Text.Canonical k.costCenter
  account : Text.Canonical k.account
  project : ∀ p ∈ k.project, Text.Canonical p
  branch : ∀ b ∈ k.branch, Text.Canonical b

/-- Reference data that resolution may use as stored: the directory's owners are trimmed and the
    calendar's period names are canonical. -/
structure Resolver.Clean (r : Resolver) : Prop where
  owners : ∀ e ∈ r.directory, Text.trim e.2 = e.2
  periods : ∀ p ∈ r.calendar, Text.Canonical p.name

/-- What resolution takes from the document and the defaults is canonical: the cost center,
    account, project and branch always, and the company and the period unless the directory
    or the calendar supplied them. -/
theorem Resolver.resolve_canonical_parts {r : Resolver} {src : DimensionSource}
    {cd : Option String} {k : DimensionKey} (h : r.resolve src cd = .ok k) :
    Text.Canonical k.costCenter ∧ Text.Canonical k.account ∧
      (∀ p ∈ k.project, Text.Canonical p) ∧ (∀ b ∈ k.branch, Text.Canonical b) ∧
      (Text.Canonical k.company ∨ (∃ e ∈ r.directory, e.2 = k.company) ∧ k.company ≠ "") ∧
      (Text.Canonical k.fiscalPeriod ∨ ∃ p ∈ r.calendar, p.name = k.fiscalPeriod) := by
  obtain ⟨hcc, hacct, hcompany, hperiod, hproject, hbranch⟩ := r.resolve_eq_ok h
  have hopt : ∀ (enforced : Bool) (o x : Option String),
      x = (if enforced then Text.present o else none) → ∀ t ∈ x, Text.Canonical t := by
    intro enforced o x hx t ht
    cases enforced
    · simp [hx] at ht
    · exact Text.canonical_of_present (by simpa [hx] using ht)
  refine ⟨Text.canonical_of_nonBlank? hcc, Text.canonical_of_nonBlank? hacct,
    hopt _ _ _ hproject, hopt _ _ _ hbranch, ?_, ?_⟩
  · rcases hcompany with hdoc | ⟨-, hown, hblank⟩
    · exact .inl (Text.canonical_of_present hdoc)
    · exact .inr ⟨Resolver.companyOf_mem hown, Text.ne_empty_of_isBlank hblank⟩
  · rcases hperiod with h | h | h | h
    · exact .inl (Text.canonical_of_present h)
    · exact .inl (Text.canonical_of_present h)
    · exact .inl (Text.canonical_of_present h)
    · exact .inr (FiscalCalendar.periodFor_mem h)

/-- **Canonical keys.** With clean reference data, every key resolution returns is canonical. -/
theorem Resolver.resolve_canonical {r : Resolver} {src : DimensionSource} {cd : Option String}
    {k : DimensionKey} (hr : r.Clean) (h : r.resolve src cd = .ok k) : k.Canonical := by
  obtain ⟨hcc, hacct, hproject, hbranch, hcompany, hperiod⟩ := r.resolve_canonical_parts h
  refine ⟨?_, ?_, hcc, hacct, hproject, hbranch⟩
  · rcases hcompany with hc | ⟨⟨e, he, hek⟩, hne⟩
    · exact hc
    · exact ⟨hne, hek ▸ hr.owners e he⟩
  · rcases hperiod with hp | ⟨p, hp, hpk⟩
    · exact hp
    · exact hpk ▸ hr.periods p hp

/-- A directory in which the operations cost center belongs to `ACME`, and a calendar of one
    shared fiscal year. -/
def opsResolver : Resolver :=
  { directory := [("CC-OPS", "ACME")], calendar := [⟨"FY2026", none, ⟨2026, 1, 1⟩, ⟨2026, 12, 31⟩⟩],
    enforce := {}, globalDefaultPeriod := none }

/-- A line of account 6100 of the operations cost center that names neither its company nor
    its period. -/
def opsLine : DimensionSource := { costCenter := "CC-OPS", account := "6100", postingDate := ⟨2026, 3, 1⟩ }

/-- The line takes its company from the directory and its period from the calendar, and the
    key is canonical. -/
theorem Resolver.ops_line_resolves_canonical :
    opsResolver.Clean ∧ opsResolver.resolve opsLine none = .ok ⟨"ACME", "FY2026", "CC-OPS", "6100", none, none⟩ ∧
      DimensionKey.Canonical ⟨"ACME", "FY2026", "CC-OPS", "6100", none, none⟩ := by
  have hclean : opsResolver.Clean := ⟨by decide, by decide⟩
  have hres : opsResolver.resolve opsLine none = .ok ⟨"ACME", "FY2026", "CC-OPS", "6100", none, none⟩ :=
    rfl
  exact ⟨hclean, hres, Resolver.resolve_canonical hclean hres⟩

/-- The same directory with the owner stored padded. -/
def paddedOwner : Resolver := { opsResolver with directory := [("CC-OPS", " ACME ")] }

/-- A padded owner in the directory becomes the company of the key as it is stored. -/
theorem Resolver.padded_owner_leaks :
    paddedOwner.resolve opsLine none = .ok ⟨" ACME ", "FY2026", "CC-OPS", "6100", none, none⟩ ∧
      ¬ Text.Canonical " ACME " :=
  ⟨rfl, by decide⟩

/-! ## Section 4: Padding does not matter -/

/-- Two documents' fields agree once trimmed, a blank one counting as absent, and they are
    posted on the same day. -/
structure DimensionSource.Agree (a b : DimensionSource) : Prop where
  company : Text.present a.company = Text.present b.company
  fiscalPeriod : Text.present a.fiscalPeriod = Text.present b.fiscalPeriod
  costCenter : Text.trim a.costCenter = Text.trim b.costCenter
  account : Text.trim a.account = Text.trim b.account
  project : Text.present a.project = Text.present b.project
  branch : Text.present a.branch = Text.present b.branch
  postingDate : a.postingDate = b.postingDate

/-- Resolution sees only trimmed values: over the same reference data, documents and defaults
    that agree once trimmed resolve alike, up to the untrimmed texts a failure quotes. -/
theorem Resolver.resolve_missing_congr (r : Resolver) {g₁ g₂ : Option String}
    {a b : DimensionSource} {ca cb : Option String} (hsrc : a.Agree b)
    (hcaller : Text.present ca = Text.present cb) (hglobal : Text.present g₁ = Text.present g₂) :
    ({ r with globalDefaultPeriod := g₁ }.resolve a ca).mapError Unresolved.missing =
      ({ r with globalDefaultPeriod := g₂ }.resolve b cb).mapError Unresolved.missing := by
  have hc := hsrc.company
  have hp := hsrc.fiscalPeriod
  have hpr := hsrc.project
  have hbr := hsrc.branch
  simp only [Text.present] at hc hp hpr hbr hcaller hglobal
  unfold Resolver.resolve
  simp only [Text.nonBlank?_congr hsrc.costCenter, Text.nonBlank?_congr hsrc.account, hc, hp, hpr,
    hbr, hcaller, hglobal, hsrc.postingDate, Resolver.companyOf]
  -- the two runs now differ only in the texts their failures carry
  split
  · split
    · split
      · split <;> rfl
      · rfl
    · rfl
  · rfl

/-- **Padding does not matter.** Over the same directory, calendar and enforced dimensions,
    documents, caller defaults and global defaults that agree once trimmed resolve to the same
    key, or both fail naming the same missing dimension. -/
theorem Resolver.resolve_ignores_padding (r : Resolver) {g₁ g₂ : Option String}
    {a b : DimensionSource} {ca cb : Option String} (hsrc : a.Agree b)
    (hcaller : Text.present ca = Text.present cb) (hglobal : Text.present g₁ = Text.present g₂) :
    (∃ k, { r with globalDefaultPeriod := g₁ }.resolve a ca = .ok k ∧
        { r with globalDefaultPeriod := g₂ }.resolve b cb = .ok k) ∨
      ∃ u v, { r with globalDefaultPeriod := g₁ }.resolve a ca = .error u ∧
        { r with globalDefaultPeriod := g₂ }.resolve b cb = .error v ∧ u.missing = v.missing := by
  have h := r.resolve_missing_congr hsrc hcaller hglobal
  cases h₁ : { r with globalDefaultPeriod := g₁ }.resolve a ca <;>
    cases h₂ : { r with globalDefaultPeriod := g₂ }.resolve b cb <;>
    simp only [h₁, h₂, Except.mapError, Except.error.injEq, Except.ok.injEq, reduceCtorEq] at h
  · exact .inr ⟨_, _, rfl, rfl, h⟩
  · exact .inl ⟨_, rfl, h ▸ rfl⟩

/-- The operations line written with padding, a blank period and a padded caller default, over
    a blank global default, against the same line written plainly. -/
def paddedOpsLine : DimensionSource :=
  { company := some " ACME ", fiscalPeriod := some "  ", costCenter := " CC-OPS ",
    account := "6100 ", postingDate := ⟨2026, 3, 1⟩ }

def plainOpsLine : DimensionSource :=
  { company := some "ACME", costCenter := "CC-OPS", account := "6100", postingDate := ⟨2026, 3, 1⟩ }

/-- The padded and the plain line agree once trimmed, and resolve alike: the blank period of
    the padded line falls through to the caller's default, as the plain line's missing one does. -/
theorem Resolver.padded_line_resolves_alike :
    paddedOpsLine.Agree plainOpsLine ∧ Text.present (some " FY2026") = Text.present (some "FY2026") ∧
      Text.present (some " ") = Text.present none ∧
      ((∃ k, { opsResolver with globalDefaultPeriod := some " " }.resolve paddedOpsLine (some " FY2026") = .ok k ∧
          { opsResolver with globalDefaultPeriod := none }.resolve plainOpsLine (some "FY2026") = .ok k) ∨
        ∃ u v, { opsResolver with globalDefaultPeriod := some " " }.resolve paddedOpsLine (some " FY2026") = .error u ∧
          { opsResolver with globalDefaultPeriod := none }.resolve plainOpsLine (some "FY2026") = .error v ∧
          u.missing = v.missing) := by
  have hagree : paddedOpsLine.Agree plainOpsLine :=
    ⟨by decide, by decide, by decide, by decide, rfl, rfl, rfl⟩
  have hcaller : Text.present (some " FY2026") = Text.present (some "FY2026") := by decide
  have hglobal : Text.present (some " ") = Text.present none := by decide
  exact ⟨hagree, hcaller, hglobal, Resolver.resolve_ignores_padding opsResolver hagree hcaller hglobal⟩

end Encumbrance
