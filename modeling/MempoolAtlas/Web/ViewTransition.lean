import MempoolAtlas.Web.ViewState

/-!
# Navigating a comparison

`web/src/comparison-view-transition.ts`: a requested view is resolved against
the comparison and the stored view, and applied with its effects when it
changes what is shown. The effects are listed in the order they are called.

## Results

* `navigate_eq` — what a request does.
* `ownNorm_navigateAll` — after any requests the view is its own norm.
* `comparison_navigation` — norms, effects and requests that change nothing.
-/

namespace MempoolAtlas.Web

/-- How much of the view a request changes. -/
inductive ComparisonViewUpdateKind where
  | none
  | transaction
  | population
deriving DecidableEq, Repr

/-- What a request is resolved to. -/
structure ResolvedComparisonViewTransition where
  region : ComparisonRegionKey
  side : ComparisonSide
  filter : ComparisonPolicyFilter
  txid : Option String
  selectedEntry : Option ComparedTransaction
  transactionIndex : Nat
  updateKind : ComparisonViewUpdateKind
deriving DecidableEq, Repr

/-- What a transition makes the page do. -/
inductive ViewEffect where
  | applyResolvedView (resolved : ResolvedComparisonViewTransition)
  | renderPopulation
  | syncTransactionSelection
  | renderTransactionNavigator
  | updateQuery
  | scheduleCanvasRender
  | loadTransactionDetail (entry : ComparedTransaction)
deriving DecidableEq, Repr

/-- Whether two filters are one. -/
def comparisonPolicyFiltersMatch : ComparisonPolicyFilter → ComparisonPolicyFilter → Bool
  | .all, .all => true
  | .rule left, .rule right => left == right
  | .status left, .status right => left == right
  | .signature left, .signature right => left == right
  | _, _ => false

/-- `resolveComparisonViewTransition`: what is requested, as far as the comparison has it. -/
def resolveComparisonViewTransition (comparison : CurrentComparison)
    (previous requested : ComparisonViewState) : ResolvedComparisonViewTransition :=
  let lookup := requested.txid.bind (lookupComparisonTransaction comparison)
  let region := ((lookup.map (·.region)).or requested.region).getD .common
  let side := policySideForRegion region (requested.side.getD .left)
  let filter := match requested.txid with
    | none => requested.filter
    | some _ => .all
  let previousRegion := previous.region.getD .common
  let previousSide := policySideForRegion previousRegion (previous.side.getD .left)
  let populationChanged := previousRegion != region || previousSide != side ||
    !comparisonPolicyFiltersMatch previous.filter filter
  let transactionChanged := previous.txid != requested.txid
  { region, side, filter
    txid := requested.txid
    selectedEntry := lookup.map (·.entry)
    transactionIndex := (lookup.map (·.index)).getD 0
    updateKind :=
      if populationChanged then .population
      else if transactionChanged then .transaction
      else .none }

/-- The transition with its effects, in order. -/
def executeComparisonViewTransition (comparison : CurrentComparison)
    (previous requested : ComparisonViewState) :
    ResolvedComparisonViewTransition × List ViewEffect :=
  let resolved := resolveComparisonViewTransition comparison previous requested
  match resolved.updateKind with
  | .none => (resolved, [])
  | kind =>
    (resolved, [.applyResolvedView resolved,
        if kind = .population then .renderPopulation else .syncTransactionSelection,
        .renderTransactionNavigator, .updateQuery, .scheduleCanvasRender] ++
      (resolved.selectedEntry.map ViewEffect.loadTransactionDetail).toList)

/-- What an effect leaves of the stored view: `applyResolvedView` stores the
resolved one, between the same two sources. -/
def ViewEffect.store (view : ComparisonViewState) : ViewEffect → ComparisonViewState
  | .applyResolvedView resolved =>
    { view with
      region := some resolved.region
      side := some resolved.side
      filter := resolved.filter
      txid := resolved.txid }
  | _ => view

/-- A request against the stored view: the view stored after it, and its effects. -/
def navigate (comparison : CurrentComparison) (stored requested : ComparisonViewState) :
    ComparisonViewState × List ViewEffect :=
  let effects := (executeComparisonViewTransition comparison stored requested).2
  (effects.foldl ViewEffect.store stored, effects)

/-- The stored view after a run of requests. -/
def navigateAll (comparison : CurrentComparison) (stored : ComparisonViewState)
    (requests : List ComparisonViewState) : ComparisonViewState :=
  requests.foldl (fun stored requested => (navigate comparison stored requested).1) stored

-- ---------------------------------------------------------------------------
-- The effective view
-- ---------------------------------------------------------------------------

/-- What a view amounts to, apart from its sources. -/
structure EffectiveView where
  region : ComparisonRegionKey
  side : ComparisonSide
  filter : ComparisonPolicyFilter
  txid : Option String
deriving DecidableEq, Repr

/-- What a population is rendered from. -/
def EffectiveView.population (view : EffectiveView) :
    ComparisonRegionKey × ComparisonSide × ComparisonPolicyFilter :=
  (view.region, view.side, view.filter)

/-- The region with a row of the txid. -/
def heldRegion (comparison : CurrentComparison) (txid : String) : Option ComparisonRegionKey :=
  comparisonRegions.find? fun region =>
    (comparison.entries region).any fun entry => entry.txid == txid

/-- What a view shows of a comparison. -/
def norm (comparison : CurrentComparison) (view : ComparisonViewState) : EffectiveView :=
  let region := ((view.txid.bind (heldRegion comparison)).or view.region).getD .common
  { region
    side := policySideForRegion region (view.side.getD .left)
    filter := if view.txid.isSome then .all else view.filter
    txid := view.txid }

/-- What a stored view says by itself, whatever the comparison holds. -/
def shownView (view : ComparisonViewState) : EffectiveView :=
  let region := view.region.getD .common
  { region
    side := policySideForRegion region (view.side.getD .left)
    filter := view.filter
    txid := view.txid }

/-- A view that is its own norm. -/
def OwnNorm (comparison : CurrentComparison) (view : ComparisonViewState) : Prop :=
  norm comparison view = shownView view

/-- The row a request selects. -/
def selected (comparison : CurrentComparison) (view : ComparisonViewState)
    (entry : ComparedTransaction) : Prop :=
  ∃ region, entry ∈ comparison.entries region ∧ view.txid = some entry.txid

-- ---------------------------------------------------------------------------
-- One request
-- ---------------------------------------------------------------------------

/-- Filters match just when they are equal. -/
theorem comparisonPolicyFiltersMatch_iff {left right : ComparisonPolicyFilter} :
    comparisonPolicyFiltersMatch left right = true ↔ left = right := by
  cases left <;> cases right <;> simp [comparisonPolicyFiltersMatch]

/-- The region a lookup gives is the region with a row of the txid. -/
theorem lookup_region {comparison : CurrentComparison} (h : PartitionsUnion comparison)
    (txid : String) :
    (lookupComparisonTransaction comparison txid).map (·.region) = heldRegion comparison txid := by
  have hAny : ∀ region, ((comparison.entries region).any fun entry => entry.txid == txid) = true ↔
      ∃ entry ∈ comparison.entries region, entry.txid = txid := by
    intro region
    simp
  cases hLookup : lookupComparisonTransaction comparison txid with
  | none =>
    have hNone := (lookupComparisonTransaction_eq_none h txid).mp hLookup
    rw [← Bool.not_eq_true, ← Bool.not_eq_true, ← not_or, ← h.exists_entry] at hNone
    refine (List.find?_eq_none.mpr fun region _ hHeld => hNone ⟨region, ?_⟩).symm
    exact (hAny region).mp hHeld
  | some found =>
    obtain ⟨region, index, entry⟩ := found
    obtain ⟨hEntry, hTxid⟩ := (lookupComparisonTransaction_eq_some h txid region index entry).mp
      hLookup
    have hMem : entry ∈ comparison.entries region := List.mem_of_getElem? hEntry
    cases hHeld : heldRegion comparison txid with
    | none =>
      have hAbsent := List.find?_eq_none.mp hHeld region (by cases region <;> decide)
      exact absurd ((hAny region).mpr ⟨entry, hMem, hTxid⟩) hAbsent
    | some other =>
      have hFound : ((comparison.entries other).any fun entry => entry.txid == txid) = true :=
        @List.find?_some _ (fun region =>
          (comparison.entries region).any fun entry => entry.txid == txid) _ _ hHeld
      obtain ⟨entry', hMem', hTxid'⟩ := (hAny other).mp hFound
      rw [h.region_unique hMem' hMem (hTxid'.trans hTxid.symm)]
      rfl

/-- What is resolved is the norm of the request. -/
theorem resolved_norm {comparison : CurrentComparison} (hUnion : PartitionsUnion comparison)
    (previous requested : ComparisonViewState) :
    let resolved := resolveComparisonViewTransition comparison previous requested
    (⟨resolved.region, resolved.side, resolved.filter, resolved.txid⟩ : EffectiveView) =
      norm comparison requested := by
  have hRegion : (requested.txid.bind (lookupComparisonTransaction comparison)).map (·.region) =
      requested.txid.bind (heldRegion comparison) := by
    cases requested.txid with
    | none => rfl
    | some txid => exact lookup_region hUnion txid
  simp only [resolveComparisonViewTransition, norm, hRegion]
  cases requested.txid <;> rfl

theorem populationChanged_iff (previous : ComparisonViewState)
    (resolved : ResolvedComparisonViewTransition) :
    (previous.region.getD .common != resolved.region ||
      policySideForRegion (previous.region.getD .common) (previous.side.getD .left) !=
        resolved.side || !comparisonPolicyFiltersMatch previous.filter resolved.filter) = true ↔
    (shownView previous).population ≠ (resolved.region, resolved.side, resolved.filter) := by
  rw [Bool.or_eq_true, Bool.or_eq_true, bne_iff_ne, bne_iff_ne, Bool.not_eq_true',
    ← Bool.not_eq_true, comparisonPolicyFiltersMatch_iff]
  simp only [EffectiveView.population, shownView, ne_eq, Prod.mk.injEq]
  tauto

/-- The kind of an update says what it changes. -/
theorem updateKind_eq {comparison : CurrentComparison} (hUnion : PartitionsUnion comparison)
    (previous requested : ComparisonViewState) :
    (resolveComparisonViewTransition comparison previous requested).updateKind =
      if (shownView previous).population ≠ (norm comparison requested).population then .population
      else if previous.txid ≠ requested.txid then .transaction
      else .none := by
  have hChanged := populationChanged_iff previous
    (resolveComparisonViewTransition comparison previous requested)
  have hNorm := resolved_norm hUnion previous requested
  rw [← hNorm]
  by_cases hPopulation : (shownView previous).population =
      (norm comparison requested).population
  · rw [← hNorm] at hPopulation
    rw [if_neg (not_not.mpr hPopulation)]
    refine (if_neg fun h => hChanged.mp h hPopulation).trans ?_
    by_cases hTxid : previous.txid = requested.txid
    · rw [if_neg (not_not.mpr hTxid), hTxid]
      exact if_neg (by simp)
    · rw [if_pos hTxid]
      exact if_pos (bne_iff_ne.mpr hTxid)
  · rw [← hNorm] at hPopulation
    rw [if_pos hPopulation]
    exact if_pos (hChanged.mpr hPopulation)

/-- A request changes nothing exactly when its norm is what is shown. -/
theorem updateKind_eq_none {comparison : CurrentComparison} (hUnion : PartitionsUnion comparison)
    (previous requested : ComparisonViewState) :
    (resolveComparisonViewTransition comparison previous requested).updateKind = .none ↔
      shownView previous = norm comparison requested := by
  rw [updateKind_eq hUnion]
  constructor
  · intro h
    split at h
    · cases h
    · next hSame =>
      split at h
      · cases h
      · next hTxid =>
        rw [not_not, EffectiveView.population, EffectiveView.population, Prod.mk.injEq,
          Prod.mk.injEq] at hSame
        obtain ⟨hRegion, hSide, hFilter⟩ := hSame
        have hTxid' : (shownView previous).txid = (norm comparison requested).txid := not_not.mp hTxid
        cases hShown : shownView previous
        cases hNorm : norm comparison requested
        simp only [hShown, hNorm] at hRegion hSide hFilter hTxid'
        rw [hRegion, hSide, hFilter, hTxid']
  · intro h
    have hTxid : previous.txid = requested.txid := congrArg EffectiveView.txid h
    rw [h, if_neg (not_not.mpr rfl), if_neg (not_not.mpr hTxid)]

/-- A view showing the norm of another has that norm. -/
theorem norm_of_shownView {comparison : CurrentComparison} {view other : ComparisonViewState}
    (h : shownView view = norm comparison other) : norm comparison view = norm comparison other := by
  have hTxid : view.txid = other.txid := congrArg EffectiveView.txid h
  have hRegion : view.region.getD .common = (norm comparison other).region :=
    congrArg EffectiveView.region h
  have hSide : policySideForRegion (view.region.getD .common) (view.side.getD .left) =
      (norm comparison other).side := congrArg EffectiveView.side h
  have hFilter : view.filter = (norm comparison other).filter := congrArg EffectiveView.filter h
  have hSame : ((view.txid.bind (heldRegion comparison)).or view.region).getD .common =
      view.region.getD .common := by
    cases hHeld : view.txid.bind (heldRegion comparison) with
    | none => rfl
    | some region =>
      rw [hRegion, norm, ← hTxid, hHeld]
      rfl
  rw [← h, norm, hSame, shownView]
  congr 1
  split
  · next hSome =>
    rw [hFilter, norm, ← hTxid, if_pos hSome]
  · rfl

/-- A row the lookup gives is the row a request selects. -/
theorem selectedEntry_iff {comparison : CurrentComparison} (hUnion : PartitionsUnion comparison)
    (previous requested : ComparisonViewState) (entry : ComparedTransaction) :
    (resolveComparisonViewTransition comparison previous requested).selectedEntry = some entry ↔
      selected comparison requested entry := by
  show (requested.txid.bind (lookupComparisonTransaction comparison)).map (·.entry) = some entry ↔ _
  rw [Option.map_eq_some_iff]
  constructor
  · rintro ⟨⟨region, index, found⟩, hFound, rfl⟩
    obtain ⟨txid, hTxid, hLookup⟩ := Option.bind_eq_some_iff.mp hFound
    obtain ⟨hEntry, rfl⟩ := (lookupComparisonTransaction_eq_some hUnion ..).mp hLookup
    exact ⟨region, List.mem_of_getElem? hEntry, hTxid⟩
  · rintro ⟨region, hMem, hTxid⟩
    obtain ⟨index, hIndex⟩ := List.mem_iff_getElem?.mp hMem
    refine ⟨⟨region, index, entry⟩, ?_, rfl⟩
    rw [hTxid, Option.bind_some]
    exact (lookupComparisonTransaction_eq_some hUnion ..).mpr ⟨hIndex, rfl⟩

/-- What a request does: nothing when its norm is shown, else the resolved view
is stored and the page brought up to it. -/
theorem navigate_eq {comparison : CurrentComparison} (hUnion : PartitionsUnion comparison)
    (stored requested : ComparisonViewState) :
    let resolved := resolveComparisonViewTransition comparison stored requested
    navigate comparison stored requested =
      if shownView stored = norm comparison requested then (stored, [])
      else
        ({ stored with
            region := some resolved.region
            side := some resolved.side
            filter := resolved.filter
            txid := resolved.txid },
          [.applyResolvedView resolved,
            if (shownView stored).population ≠ (norm comparison requested).population then
              .renderPopulation
            else .syncTransactionSelection,
            .renderTransactionNavigator, .updateQuery, .scheduleCanvasRender] ++
            (resolved.selectedEntry.map ViewEffect.loadTransactionDetail).toList) := by
  intro resolved
  have hKind := updateKind_eq hUnion stored requested
  have hDetail : ∀ view : ComparisonViewState,
      ((resolved.selectedEntry.map ViewEffect.loadTransactionDetail).toList).foldl ViewEffect.store
        view = view := by
    intro view
    cases resolved.selectedEntry <;> rfl
  split
  · next hSame =>
    have hNone := (updateKind_eq_none hUnion stored requested).mpr hSame
    rw [navigate, executeComparisonViewTransition, hNone]
    rfl
  · next hChanged =>
    have hSome : resolved.updateKind ≠ .none := fun h =>
      hChanged ((updateKind_eq_none hUnion stored requested).mp h)
    have hEffects : (executeComparisonViewTransition comparison stored requested).2 =
        [.applyResolvedView resolved,
          if resolved.updateKind = .population then .renderPopulation
          else .syncTransactionSelection,
          .renderTransactionNavigator, .updateQuery, .scheduleCanvasRender] ++
          (resolved.selectedEntry.map ViewEffect.loadTransactionDetail).toList := by
      rw [executeComparisonViewTransition]
      split
      · next hNone => exact absurd hNone hSome
      · rfl
    have hPopulation : resolved.updateKind = .population ↔
        (shownView stored).population ≠ (norm comparison requested).population := by
      rw [hKind]
      split
      · next h => exact iff_of_true rfl h
      · next h =>
        refine iff_of_false ?_ h
        split <;> decide
    rw [navigate, hEffects, List.foldl_append, hDetail]
    simp only [hPopulation]
    refine Prod.ext ?_ rfl
    dsimp only
    split <;> rfl

/-- The norm of a request is shown after it, and is the norm of what is stored. -/
theorem shownView_navigate {comparison : CurrentComparison} (hUnion : PartitionsUnion comparison)
    (stored requested : ComparisonViewState) :
    shownView (navigate comparison stored requested).1 = norm comparison requested := by
  rw [navigate_eq hUnion]
  split
  · next hSame => exact hSame
  · have hNorm := resolved_norm hUnion stored requested
    rw [← hNorm]
    show EffectiveView.mk _ _ _ _ = _
    congr 1
    exact policySideForRegion_self _ _

/-- After a request the view is its own norm. -/
theorem ownNorm_navigate {comparison : CurrentComparison} (hUnion : PartitionsUnion comparison)
    (stored requested : ComparisonViewState) :
    norm comparison (navigate comparison stored requested).1 = norm comparison requested ∧
      OwnNorm comparison (navigate comparison stored requested).1 := by
  have hShown := shownView_navigate hUnion stored requested
  have hNorm := norm_of_shownView hShown
  exact ⟨hNorm, hNorm.trans hShown.symm⟩

/-- A request for what is shown changes nothing. -/
theorem navigate_of_shown {comparison : CurrentComparison} (hUnion : PartitionsUnion comparison)
    {stored requested : ComparisonViewState} (h : shownView stored = norm comparison requested) :
    navigate comparison stored requested = (stored, []) := by
  rw [navigate_eq hUnion, if_pos h]

-- ---------------------------------------------------------------------------
-- Runs of requests
-- ---------------------------------------------------------------------------

/-- After any requests the view is its own norm. -/
theorem ownNorm_navigateAll {comparison : CurrentComparison} (hUnion : PartitionsUnion comparison)
    {initial : ComparisonViewState} (hInitial : OwnNorm comparison initial)
    (requests : List ComparisonViewState) :
    OwnNorm comparison (navigateAll comparison initial requests) := by
  induction requests generalizing initial with
  | nil => exact hInitial
  | cons requested rest ih => exact ih (ownNorm_navigate hUnion initial requested).2

/-- Over a comparison of sorted snapshots, from a view that is its own norm: a
request's norm is what is stored after it, the population is rendered when
the effective one changed, the detail loaded when the effective view changed
and the row is there, and a request for what is shown does nothing. -/
theorem comparison_navigation (left right : LoadedSourceSnapshot)
    (hLeft : TxidSorted left.snapshot.transactions)
    (hRight : TxidSorted right.snapshot.transactions) (comparison : CurrentComparison)
    (hCompared : compareCurrentSnapshots left right = .ok comparison)
    (initial : ComparisonViewState) (hInitial : OwnNorm comparison initial)
    (requests : List ComparisonViewState) (requested : ComparisonViewState) :
    let stored := navigateAll comparison initial requests
    let after := navigate comparison stored requested
    after.1 = navigateAll comparison initial (requests ++ [requested]) ∧
    norm comparison after.1 = norm comparison requested ∧
    (ViewEffect.renderPopulation ∈ after.2 ↔
      (norm comparison requested).population ≠ (norm comparison stored).population) ∧
    (∀ entry, ViewEffect.loadTransactionDetail entry ∈ after.2 ↔
      norm comparison requested ≠ norm comparison stored ∧ selected comparison requested entry) ∧
    (after.2 = [] ↔ norm comparison requested = norm comparison stored) ∧
    navigate comparison after.1 requested = (after.1, []) ∧
    navigate comparison after.1 after.1 = (after.1, []) ∧
    navigate comparison stored stored = (stored, []) := by
  intro stored after
  have hUnion := partitionsUnion hLeft hRight hCompared
  have hStored : norm comparison stored = shownView stored :=
    ownNorm_navigateAll hUnion hInitial requests
  obtain ⟨hNorm, hOwn⟩ := ownNorm_navigate hUnion stored requested
  have hAfter := navigate_eq hUnion stored requested
  have hShown := shownView_navigate hUnion stored requested
  refine ⟨?_, hNorm, ?_, fun entry => ?_, ?_, navigate_of_shown hUnion hShown,
    navigate_of_shown hUnion hOwn.symm, navigate_of_shown hUnion hStored.symm⟩
  · rw [navigateAll, List.foldl_append]
    rfl
  · rw [hStored]
    show _ ∈ (navigate comparison stored requested).2 ↔ _
    rw [hAfter]
    split
    · next hSame => simp [← hSame]
    · by_cases hPopulation : (shownView stored).population = (norm comparison requested).population
      · simp [hPopulation]
      · simp [hPopulation, Ne.symm hPopulation]
  · rw [hStored, ← selectedEntry_iff hUnion stored]
    show _ ∈ (navigate comparison stored requested).2 ↔ _
    rw [hAfter]
    split
    · next hSame => simp [← hSame]
    · next hChanged =>
      by_cases hPopulation : (shownView stored).population = (norm comparison requested).population
      · simp [hPopulation, Ne.symm hChanged]
      · simp [hPopulation, Ne.symm hChanged]
  · rw [hStored]
    show (navigate comparison stored requested).2 = [] ↔ _
    rw [hAfter]
    split
    · next hSame => simp [← hSame]
    · next hChanged => simp [Ne.symm hChanged]

/-- The view a comparison starts with. -/
def defaultViewState (left right : String) : ComparisonViewState where
  left := some left
  right := some right
  region := some .common
  side := some .left
  filter := .all
  txid := none

theorem ownNorm_default (comparison : CurrentComparison) (left right : String) :
    OwnNorm comparison (defaultViewState left right) := rfl

/-- The status filter of the second source, then a transaction only it has. -/
theorem comparison_navigation_rightOnly :
    ∃ comparison, compareCurrentSnapshots sampleLeft sampleRight = .ok comparison ∧
      let filtered := { defaultViewState "core" "knots" with
        side := some .right, filter := .status .violating }
      let searched := { defaultViewState "core" "knots" with txid := some "2c" }
      let stored := navigateAll comparison (defaultViewState "core" "knots") [filtered]
      let after := (navigate comparison stored searched).1
      norm comparison after = norm comparison searched ∧
        navigate comparison after searched = (after, []) := by
  have hMade : ∃ comparison, compareCurrentSnapshots sampleLeft sampleRight = .ok comparison :=
    ⟨_, if_neg (by decide)⟩
  obtain ⟨comparison, hCompared⟩ := hMade
  refine ⟨comparison, hCompared, ?_⟩
  intro filtered searched stored after
  obtain ⟨-, hNorm, -, -, -, hRepeat, -, -⟩ :=
    comparison_navigation sampleLeft sampleRight sampleLeft_sorted sampleRight_sorted comparison
      hCompared (defaultViewState "core" "knots") (ownNorm_default comparison "core" "knots")
      [filtered] searched
  exact ⟨hNorm, hRepeat⟩

end MempoolAtlas.Web
