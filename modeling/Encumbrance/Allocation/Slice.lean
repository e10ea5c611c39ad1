import Encumbrance.Allocation.Basic
import Encumbrance.Control.Error

/-!
# Slicing documents into keyed amounts

A document is sliced into one amount per dimension key, each rounded to the currency's minor
unit (half to even). No line may be negative; the document total is the rounded sum of its
lines.

* Without an allocation, each line becomes one slice at the document's cost center and the
  line's account.
* With an allocation, which must be ready, each line is spread over the allocation's lines in
  proportion to their shares: the slice for a share is the line's amount times
  `share / allocation total`, at the share's cost center, with the share's project and branch
  where it names them and the document's otherwise. A document being locked must also match
  the allocation's total within the tolerance; a secondary document consuming it need not.

Rounding each slice separately can leave the slices a few minor units off the total. That
residual is settled on the last slice, or on the largest slice when the last one would turn
negative; then slices of zero are dropped. So the slices always add up to the document total.
-/

namespace Encumbrance

/-- Whether a document is being locked or a secondary document is consuming it. -/
inductive SliceMode where
  | document
  | secondary
  deriving DecidableEq, Repr

/-- One step of the search for the largest amount: an indexed amount that is not smaller than
    the best so far takes its place, so of equal amounts the last one wins. -/
def keepLarger (best : Option (Nat × Decimal)) (p : Nat × Decimal) : Option (Nat × Decimal) :=
  match best with
  | none => some p
  | some b => if p.2 < b.2 then some b else some p

/-- The index of the largest amount; of several equal largest ones, the last. -/
def lastMaxIndex (xs : List Decimal) : Option Nat :=
  ((xs.zipIdx.map fun (x, i) => (i, x)).foldl keepLarger none).map (·.1)

/-- Settles the residual `total - sum` on one slice and drops the slices of zero. -/
def settle (slices : List Slice) (total : Decimal) : Except ArithError (List Slice) := do
  let sum ← Decimal.sum (slices.map (·.amount))
  let residual ← Decimal.sub total sum
  let adjusted ←
    if residual.isZero then pure slices
    else
      match slices.getLast? with
      | none => pure slices
      | some last =>
        let lastAmount ← Decimal.add last.amount residual
        if Decimal.zero ≤ lastAmount then
          pure (slices.set (slices.length - 1) { last with amount := lastAmount })
        else
          match lastMaxIndex (slices.map (·.amount)) with
          | none => pure slices
          | some i =>
            match slices[i]? with
            | none => pure slices
            | some s =>
              let amount ← Decimal.add s.amount residual
              pure (slices.set i { s with amount })
  pure (adjusted.filter fun s => !s.amount.isZero)

/-- The settings slicing runs with. -/
structure Slicer where
  resolver : Resolver
  precision : Nat
  tolerance : Decimal

namespace Slicer

/-- Rounds to the currency's minor unit, half to even. -/
def round (s : Slicer) (d : Decimal) : Decimal := d.roundTo s.precision

/-- Checks that an allocation may be used: approved, with lines, a positive total, no line
    carrying a minus sign, and lines adding up to the total within the tolerance. -/
def ensureReady (s : Slicer) (a : AllocationDocument) : Except BudgetError Unit := do
  let notReady (reason : String) : Except BudgetError Unit := throw (.notReady a.name reason)
  if a.status ≠ .approved then
    notReady ("status is " ++ a.status.label ++ ", expected Approved")
  else if a.lines.isEmpty then
    notReady "allocation has no lines"
  else if a.total ≤ Decimal.zero then
    notReady ("allocation total " ++ a.total.toText ++ " is not positive")
  else
    match a.lines.find? (·.amount.signNegative) with
    | some l => notReady ("line for " ++ l.costCenter ++ " has negative amount")
    | none =>
      let linesTotal ← liftArith a.linesTotal
      let gap ← liftArith (Decimal.sub linesTotal a.total)
      if s.tolerance < gap.abs then
        notReady ("lines sum to " ++ linesTotal.toText ++ " but allocation total is " ++ a.total.toText)
      else pure ()

/-- The rounded document total, after checking that no line is below zero. -/
def checkedTotal (s : Slicer) (lines : List AmountLine) : Except BudgetError Decimal := do
  match lines.find? (·.amount.isNegative) with
  | some l =>
    throw (.invalidAmount ("line for account " ++ l.account ++ " is negative: " ++ l.amount.toText))
  | none =>
    let sum ← liftArith (Decimal.sum (lines.map (·.amount)))
    pure (s.round sum)

/-- Resolves the key of one slice. -/
def keyFor (s : Slicer) (src : DimensionSource) (callerDefault : Option String) :
    Except BudgetError DimensionKey :=
  (s.resolver.resolve src callerDefault).mapError .unresolved

/-- One slice per line, at the document's cost center. -/
def sliceDirect (s : Slicer) (template : DimensionSource) (lines : List AmountLine)
    (callerDefault : Option String) : Except BudgetError (List Slice) :=
  lines.mapM fun l => do
    let key ← s.keyFor { template with account := l.account } callerDefault
    pure ⟨key, s.round l.amount⟩

/-- One slice per line and allocation share, in proportion to the share. -/
def sliceRatio (s : Slicer) (template : DimensionSource) (lines : List AmountLine)
    (a : AllocationDocument) (callerDefault : Option String) : Except BudgetError (List Slice) := do
  let perLine ← lines.mapM fun l =>
    a.lines.mapM fun t => do
      let weight ← liftArith (Decimal.div t.amount a.total)
      let src : DimensionSource :=
        { template with
          costCenter := t.costCenter, account := l.account,
          project := t.project <|> template.project, branch := t.branch <|> template.branch }
      let key ← s.keyFor src callerDefault
      let amount ← liftArith (Decimal.mul l.amount weight)
      pure ⟨key, s.round amount⟩
  pure perLine.flatten

/-- The slices of a document's lines before the residual is settled, each rounded on its own:
    directly, or through an allocation after checking it (and, for a document being locked,
    its total against the document's rounded `total`). -/
def rounded (s : Slicer) (mode : SliceMode) (template : DimensionSource) (lines : List AmountLine)
    (allocation : Option AllocationDocument) (callerDefault : Option String) (total : Decimal) :
    Except BudgetError (List Slice) :=
  match allocation with
  | none => s.sliceDirect template lines callerDefault
  | some a => do
    s.ensureReady a
    if mode = .document then
      let gap ← liftArith (Decimal.sub a.total total)
      if s.tolerance < gap.abs then
        throw (.notReady a.name ("allocation total " ++ a.total.toText ++
          " does not match document total " ++ total.toText))
    s.sliceRatio template lines a callerDefault

/-- Slices a document's lines, through an allocation when one is given, and settles the
    rounding residual. -/
def slice (s : Slicer) (mode : SliceMode) (template : DimensionSource) (lines : List AmountLine)
    (allocation : Option AllocationDocument) (callerDefault : Option String) :
    Except BudgetError (List Slice) := do
  let total ← s.checkedTotal lines
  let slices ← s.rounded mode template lines allocation callerDefault total
  liftArith (settle slices total)

end Slicer

end Encumbrance
