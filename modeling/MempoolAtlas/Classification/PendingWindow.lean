import MempoolAtlas.Bitcoin.Reference
import MempoolAtlas.Classification.Evaluation
import MempoolAtlas.Classification.WindowRules

/-!
# The pending window

The representation invariant of a pending slice: its fair order, its fact table and
its byte counter always describe the active candidates. A `Ledger` follows a slice from
its creation and remembers which of the admitted candidates were classified and which
were deferred; whatever is done to the slice, and in whatever order, each of them is in
exactly one place.

## Results

* `Kept.step`, `Kept.run` — every operation, and every run of them, keeps the ledger.
* `pending_window_exact` — each admitted candidate is in exactly one place, and the
  representation describes the active ones.
-/

namespace MempoolAtlas.Classification

open Machine Model Relation BitcoinCrate

namespace PendingSlice

/-- Some active candidate requires the outpoint. -/
def Requires (pending : PendingSlice) (outpoint : OutPoint) : Prop :=
  ∃ (key : String) (candidate : PendingCandidate),
    pending.active[key]? = some candidate ∧ outpoint ∈ candidate.required

/-- The bytes of the scripts the fact table holds. -/
def readyScriptBytes (pending : PendingSlice) : Nat :=
  BTreeMap.sumBy (fun _ state => state.readyBytes) pending.facts

-- ---------------------------------------------------------------------------
-- The byte counter
-- ---------------------------------------------------------------------------

/-- The counter is the bytes of the ready scripts, within the limit. -/
structure Counted (limits : ResolverLimits) (pending : PendingSlice) : Prop where
  exact : pending.pendingScriptBytes = pending.readyScriptBytes
  le_limit : pending.pendingScriptBytes ≤ limits.maxPendingScriptBytes
  le_u64Max : pending.pendingScriptBytes ≤ u64Max

variable {limits : ResolverLimits} {pending pending' : PendingSlice}

theorem Counted.congr (h : Counted limits pending)
    (hCounter : pending'.pendingScriptBytes = pending.pendingScriptBytes)
    (hBytes : pending'.readyScriptBytes = pending.readyScriptBytes) : Counted limits pending' :=
  ⟨by rw [hCounter, hBytes, h.exact], hCounter ▸ h.le_limit, hCounter ▸ h.le_u64Max⟩

theorem readyBytes_eq_zero {state : FactState} {source : FactSource}
    (h : state.waitingSource = some source) : state.readyBytes = 0 := by
  cases state with
  | ready => cases h
  | _ => rfl

/-- Replacing a fact that holds no script by another such fact. -/
theorem sumBy_insert_unready {facts : BTreeMap OutPoint FactState} {outpoint : OutPoint}
    {state state' : FactState} (hGet : facts[outpoint]? = some state)
    (hBefore : state.readyBytes = 0) (hAfter : state'.readyBytes = 0) :
    BTreeMap.sumBy (fun _ state => state.readyBytes) (facts.insert outpoint state') =
      BTreeMap.sumBy (fun _ state => state.readyBytes) facts := by
  have hTrade := BTreeMap.sumBy_insert_of_mem (fun _ state => FactState.readyBytes state) hGet state'
  rwa [hBefore, hAfter, Nat.zero_add, Nat.zero_add] at hTrade

/-- Changing facts but not the bytes they hold. -/
theorem sumBy_of_readyBytes {facts facts' : BTreeMap OutPoint FactState}
    (h : ∀ outpoint : OutPoint, facts'[outpoint]?.map FactState.readyBytes =
      facts[outpoint]?.map FactState.readyBytes) :
    BTreeMap.sumBy (fun _ state => state.readyBytes) facts' =
      BTreeMap.sumBy (fun _ state => state.readyBytes) facts :=
  BTreeMap.sumBy_eq_of_map_eq FactState.readyBytes id h

theorem attempted_readyBytes (state : FactState) :
    state.attempted.readyBytes = state.readyBytes := by
  cases state <;> rfl

theorem modify_readyBytes {facts : BTreeMap OutPoint FactState} {outpoint : OutPoint}
    {f : FactState → FactState}
    (hf : ∀ state, facts[outpoint]? = some state → (f state).readyBytes = state.readyBytes)
    (other : OutPoint) : (facts.modify outpoint f)[other]?.map FactState.readyBytes =
      facts[other]?.map FactState.readyBytes := by
  rw [Std.ExtTreeMap.getElem?_modify]
  split
  · next hEq =>
    obtain rfl := Std.LawfulEqCmp.compare_eq_iff_eq.mp hEq
    cases hGet : facts[outpoint]? with
    | none => rfl
    | some state => exact congrArg some (hf state hGet)
  · rfl

theorem map_readyBytes {facts : BTreeMap OutPoint FactState}
    {f : OutPoint → FactState → FactState}
    (hf : ∀ outpoint state, (f outpoint state).readyBytes = state.readyBytes)
    (outpoint : OutPoint) : (facts.map f)[outpoint]?.map FactState.readyBytes =
      facts[outpoint]?.map FactState.readyBytes := by
  rw [Std.ExtTreeMap.getElem?_map, Option.map_map]
  exact congrArg (fun g => Option.map g facts[outpoint]?) (funext (hf outpoint))

/-- Rewriting facts that await a parent keeps the count. -/
theorem mapParentFacts_counted (h : Counted limits pending) (parentTxid : Txid)
    {f : FactState → FactState}
    (hf : ∀ attempts, (f (.awaiting .currentParent attempts)).readyBytes = 0) :
    Counted limits (pending.mapParentFacts parentTxid f) := by
  refine h.congr rfl (sumBy_of_readyBytes (map_readyBytes fun outpoint state => ?_))
  split
  · next hParent =>
    match state, hParent.2 with
    | .awaiting .currentParent attempts, _ => exact hf attempts
  · rfl

/-- Storing a script adds its bytes to the counter, and is refused over the limit. -/
theorem storeWaiting_counted (h : Counted limits pending) {outpoint : OutPoint}
    {state : FactState} {source : FactSource} (script : Script)
    (hGet : pending.facts[outpoint]? = some state) (hWaiting : state.waitingSource = some source) :
    Counted limits (pending.storeWaiting outpoint script limits.maxPendingScriptBytes).2 := by
  unfold storeWaiting
  split
  · exact h
  · next newTotal hTotal =>
    obtain ⟨hFits, hNew⟩ := checkedAdd_eq_some.mp hTotal
    split
    · exact h
    · next hWithin =>
      have hTrade := BTreeMap.sumBy_insert_of_mem (fun _ state => FactState.readyBytes state) hGet
        (.ready script)
      rw [readyBytes_eq_zero hWaiting, Nat.zero_add] at hTrade
      refine ⟨?_, Nat.not_lt.mp hWithin, hNew ▸ hFits⟩
      show newTotal = BTreeMap.sumBy (fun _ state => FactState.readyBytes state)
        (pending.facts.insert outpoint (.ready script))
      rw [hTrade, hNew, h.exact]
      exact Nat.add_comm _ _

/-- Blocking a fact keeps the count. -/
theorem markCapacityBlocked_counted (h : Counted limits pending) (outpoint : OutPoint) :
    Counted limits (pending.markCapacityBlocked outpoint) := by
  unfold markCapacityBlocked
  split
  · exact h
  · next source hSource =>
    obtain ⟨state, hGet, hWaiting⟩ := Option.bind_eq_some_iff.mp hSource
    exact h.congr rfl (sumBy_insert_unready hGet (readyBytes_eq_zero hWaiting) rfl)

/-- Every edit keeps the counter, and moves the facts of the slice it started from. -/
theorem closed_counted (limits : ResolverLimits) (start : PendingSlice) :
    Closed limits fun pending =>
      Counted limits pending ∧ Moved (fun _ _ => True) (fun _ => True) start pending where
  store script h hGet hWaiting :=
    ⟨storeWaiting_counted h.1 script hGet hWaiting,
      h.2.trans (storeWaiting_moved _ hGet hWaiting trivial)⟩
  block outpoint h :=
    ⟨markCapacityBlocked_counted h.1 outpoint, h.2.trans (markCapacityBlocked_moved _ outpoint)⟩
  attempt outpoint h :=
    ⟨h.1.congr rfl (sumBy_of_readyBytes
        (modify_readyBytes fun state _ => attempted_readyBytes state)),
      h.2.trans (recordFactAttempt_moved _ outpoint)⟩
  parentAttempt parentTxid h :=
    ⟨mapParentFacts_counted h.1 parentTxid fun _ => rfl,
      h.2.trans (recordParentAttempt_moved _ parentTxid)⟩
  fallBack parentTxid h :=
    ⟨mapParentFacts_counted h.1 parentTxid fun _ => rfl,
      h.2.trans (fallBackParentToGettxout_moved _ parentTxid)⟩
  defer {pending outpoint} h hExhausted := by
    have hMoved : Moved (fun _ _ => True) (fun _ => True) pending
        (pending.deferIfAttemptsExhausted outpoint) := deferIfAttemptsExhausted_moved pending outpoint
    rw [deferIfAttemptsExhausted, if_pos hExhausted] at hMoved
    refine ⟨h.1.congr rfl (sumBy_of_readyBytes (modify_readyBytes fun state hGet => ?_)),
      h.2.trans hMoved⟩
    rw [hGet, Option.any_some] at hExhausted
    match state, hExhausted with
    | .awaiting source attempts, _ => rfl
  miss h hGet :=
    ⟨h.1.congr rfl (sumBy_insert_unready hGet rfl rfl),
      h.2.trans (moved_insert hGet (.miss trivial) _ _)⟩
  cursor h hGet _ := ⟨h.1.congr rfl rfl, h.2.trans (cursor_moved _ hGet _)⟩
  rotate h hOrder := ⟨h.1.congr rfl rfl, h.2.trans (rotate_moved hOrder)⟩

/-- A recount of a table within range is exact. -/
theorem recountScriptBytes_counted (hLimit : pending.readyScriptBytes ≤ limits.maxPendingScriptBytes)
    (hU64 : pending.readyScriptBytes ≤ u64Max) : Counted limits pending.recountScriptBytes := by
  have hCounter : pending.recountScriptBytes.pendingScriptBytes = pending.readyScriptBytes := by
    have hTotal := foldl_saturatingAdd (fun fact : OutPoint × FactState => fact.2.readyBytes)
      pending.facts.toList (Nat.zero_le u64Max)
    rw [Nat.zero_add] at hTotal
    exact hTotal.trans (Nat.min_eq_left hU64)
  exact ⟨hCounter, hCounter ▸ hLimit, hCounter ▸ hU64⟩

/-- Dropping facts counts anew. -/
theorem dropUnreferencedFacts_counted (h : Counted limits pending) :
    Counted limits pending.dropUnreferencedFacts := by
  have hLess : BTreeMap.sumBy (fun _ state => FactState.readyBytes state) (pending.facts.filter
      fun outpoint _ => (pending.active.toList.flatMap fun entry => entry.2.required).contains
        outpoint) ≤ pending.pendingScriptBytes := by
    rw [h.exact]
    exact BTreeMap.sumBy_filter_le ..
  exact recountScriptBytes_counted (hLess.trans h.le_limit) (hLess.trans h.le_u64Max)

-- ---------------------------------------------------------------------------
-- The shape of a window
-- ---------------------------------------------------------------------------

/-- The fair order and the fact table are those of the active candidates, each of
which is filed under its own wtxid. -/
structure Shaped (pending : PendingSlice) : Prop where
  fairOrder : pending.fairOrder.Perm pending.active.keys
  keyed : ∀ (key : String) candidate, pending.active[key]? = some candidate →
    candidate.expected.wtxid = key
  facts : ∀ outpoint : OutPoint, outpoint ∈ pending.facts ↔ pending.Requires outpoint

theorem rel_isSome {α β : Type} {r : α → β → Prop} {a : Option α} {b : Option β}
    (h : Option.Rel r a b) : b.isSome = a.isSome := by
  cases h <;> rfl

/-- A move keeps the active candidates. -/
theorem Moved.mem_active {given : OutPoint → Script → Prop} {missing : OutPoint → Prop}
    (h : Moved given missing pending pending') (key : String) :
    key ∈ pending'.active ↔ key ∈ pending.active := by
  rw [Std.ExtTreeMap.mem_iff_isSome_getElem?, Std.ExtTreeMap.mem_iff_isSome_getElem?,
    rel_isSome (h.active key)]

/-- A move keeps the facts. -/
theorem Moved.mem_facts {given : OutPoint → Script → Prop} {missing : OutPoint → Prop}
    (h : Moved given missing pending pending') (outpoint : OutPoint) :
    outpoint ∈ pending'.facts ↔ outpoint ∈ pending.facts := by
  rw [Std.ExtTreeMap.mem_iff_isSome_getElem?, Std.ExtTreeMap.mem_iff_isSome_getElem?,
    rel_isSome (h.facts outpoint)]

theorem Moved.requires {given : OutPoint → Script → Prop} {missing : OutPoint → Prop}
    (h : Moved given missing pending pending') (outpoint : OutPoint) :
    pending'.Requires outpoint ↔ pending.Requires outpoint := by
  constructor
  · rintro ⟨key, candidate', hGet, hMem⟩
    obtain ⟨candidate, hOld, hSame⟩ := h.active_from hGet
    exact ⟨key, candidate, hOld, hSame.required ▸ hMem⟩
  · rintro ⟨key, candidate, hGet, hMem⟩
    have hRel := h.active key
    rw [hGet] at hRel
    cases hNew : pending'.active[key]? with
    | none =>
      rw [hNew] at hRel
      cases hRel
    | some candidate' =>
      rw [hNew] at hRel
      cases hRel with
      | some hSame => exact ⟨key, candidate', hNew, hSame.required ▸ hMem⟩

/-- A move keeps the shape. -/
theorem Shaped.moved {given : OutPoint → Script → Prop} {missing : OutPoint → Prop}
    (h : Shaped pending) (hMoved : Moved given missing pending pending') : Shaped pending' where
  fairOrder := hMoved.fairOrder.trans
    (h.fairOrder.trans (BTreeMap.keys_perm hMoved.mem_active).symm)
  keyed key candidate' hGet := by
    obtain ⟨candidate, hOld, hSame⟩ := hMoved.active_from hGet
    rw [hSame.expected]
    exact h.keyed key candidate hOld
  facts outpoint := by rw [hMoved.mem_facts, h.facts, hMoved.requires]

/-- A ready fact has come to rest. -/
theorem factMoves_ready {given : OutPoint → Script → Prop} {missing : OutPoint → Prop}
    {outpoint : OutPoint} {script : Script} {state' : FactState}
    (h : FactMoves given missing outpoint (.ready script) state') : state' = .ready script := by
  induction h with
  | refl => rfl
  | tail _ hMove ih =>
    rw [ih] at hMove
    cases hMove with
    | block hWaiting => cases hWaiting
    | store hWaiting _ => cases hWaiting

/-- A stored script stays as it is. -/
theorem Moved.ready {given : OutPoint → Script → Prop} {missing : OutPoint → Prop}
    (h : Moved given missing pending pending') {outpoint : OutPoint} {script : Script}
    (hGet : pending.facts[outpoint]? = some (.ready script)) :
    pending'.facts[outpoint]? = some (.ready script) := by
  obtain ⟨state', hNew, hMoves⟩ := h.fact_to hGet
  rw [hNew, factMoves_ready hMoves]

/-- Activating a new candidate keeps the shape. -/
theorem Shaped.activate (h : Shaped pending) (variants : BTreeMap Txid CurrentVariant)
    {next : PreparedCandidate} (hNew : next.expected.wtxid ∉ pending.active) :
    Shaped (pending.activate variants next) where
  fairOrder :=
    (List.perm_append_singleton _ _).trans
      ((h.fairOrder.cons _).trans (BTreeMap.keys_insert_perm _ hNew).symm)
  keyed key candidate hGet := by
    have hCases : (pending.active.insert next.expected.wtxid _)[key]? = some candidate := hGet
    rw [BTreeMap.getElem?_insert_eq] at hCases
    split at hCases
    · next hKey => rw [← Option.some.inj hCases, ← hKey]
    · exact h.keyed key candidate hCases
  facts outpoint := by
    rw [Std.ExtTreeMap.mem_iff_isSome_getElem?, activate_facts, Option.isSome_or,
      Bool.or_eq_true, ← Std.ExtTreeMap.mem_iff_isSome_getElem?, h.facts]
    constructor
    · rintro (⟨key, candidate, hGet, hMem⟩ | hMem)
      · refine ⟨key, candidate, ?_, hMem⟩
        show (pending.active.insert next.expected.wtxid _)[key]? = some candidate
        rw [BTreeMap.getElem?_insert_eq, if_neg, hGet]
        rintro rfl
        exact hNew (Std.ExtTreeMap.mem_iff_isSome_getElem?.mpr (by rw [hGet]; rfl))
      · refine ⟨next.expected.wtxid, _, Std.ExtTreeMap.getElem?_insert_self, ?_⟩
        by_contra hNot
        rw [if_neg hNot] at hMem
        cases hMem
    · rintro ⟨key, candidate, hGet, hMem⟩
      have hCases : (pending.active.insert next.expected.wtxid _)[key]? = some candidate := hGet
      rw [BTreeMap.getElem?_insert_eq] at hCases
      split at hCases
      · refine Or.inr ?_
        rw [← Option.some.inj hCases] at hMem
        rw [if_pos hMem]
        rfl
      · exact Or.inl ⟨key, candidate, hCases, hMem⟩

/-- Leaving candidates out, with their turns and the facts only they need. -/
theorem Shaped.keep (h : Shaped pending) {active : BTreeMap String PendingCandidate}
    (hActive : ∀ (key : String) candidate, active[key]? = some candidate →
      pending.active[key]? = some candidate) :
    Shaped { pending with
      active, fairOrder := pending.fairOrder.filter fun key => active.contains key
    }.dropUnreferencedFacts where
  fairOrder := by
    have hKeys : (pending.active.keys.filter fun key => active.contains key).Perm active.keys := by
      rw [List.perm_ext_iff_of_nodup ((BTreeMap.nodup_keys _).filter _) (BTreeMap.nodup_keys _)]
      intro key
      rw [List.mem_filter, Std.ExtTreeMap.mem_keys, Std.ExtTreeMap.mem_keys,
        Std.ExtTreeMap.contains_iff_mem, and_iff_right_iff_imp]
      intro hMem
      obtain ⟨candidate, hGet⟩ :=
        Option.isSome_iff_exists.mp (Std.ExtTreeMap.mem_iff_isSome_getElem?.mp hMem)
      exact Std.ExtTreeMap.mem_iff_isSome_getElem?.mpr (by rw [hActive key candidate hGet]; rfl)
    exact (h.fairOrder.filter _).trans hKeys
  keyed key candidate hGet := h.keyed key candidate (hActive key candidate hGet)
  facts outpoint := by
    rw [Std.ExtTreeMap.mem_iff_isSome_getElem?, Option.isSome_iff_exists]
    simp only [dropUnreferencedFacts_get]
    constructor
    · rintro ⟨state, -, hRequires⟩
      exact hRequires
    · rintro ⟨key, candidate, hGet, hMem⟩
      obtain ⟨state, hState⟩ := Option.isSome_iff_exists.mp (Std.ExtTreeMap.mem_iff_isSome_getElem?.mp
        ((h.facts outpoint).mpr ⟨key, candidate, hActive key candidate hGet, hMem⟩))
      exact ⟨state, hState, key, candidate, hGet, hMem⟩

-- ---------------------------------------------------------------------------
-- Admission
-- ---------------------------------------------------------------------------

/-- The wtxids of the candidates a slice holds. -/
def wtxids (pending : PendingSlice) : List String :=
  (pending.queued.map fun candidate => candidate.expected.wtxid) ++ pending.active.keys

/-- What every candidate a slice holds satisfies. -/
def Holds (P : ExpectedVariant → Transaction → Prop) (pending : PendingSlice) : Prop :=
  (∀ candidate ∈ pending.queued, P candidate.expected candidate.transaction) ∧
    ∀ (key : String) candidate, pending.active[key]? = some candidate →
      P candidate.expected candidate.transaction

theorem activate_readyScriptBytes (pending : PendingSlice) (variants : BTreeMap Txid CurrentVariant)
    (next : PreparedCandidate) :
    (pending.activate variants next).readyScriptBytes = pending.readyScriptBytes := by
  refine BTreeMap.sumBy_foldl_insertIfNew _ (fun outpoint => ?_) _ _
  unfold initialFact
  split <;> rfl

theorem activate_get {variants : BTreeMap Txid CurrentVariant} {next : PreparedCandidate}
    {outpoint : OutPoint} {state : FactState} (hGet : pending.facts[outpoint]? = some state) :
    (pending.activate variants next).facts[outpoint]? = some state := by
  rw [activate_facts, hGet]
  rfl

/-- A pass over the queue that admits candidates in order. -/
structure Admits (P : ExpectedVariant → Transaction → Prop) (queued : List PreparedCandidate)
    (pending pending' : PendingSlice) : Prop where
  shaped : Shaped pending'
  bytes : pending'.readyScriptBytes = pending.readyScriptBytes
  wtxids : pending'.wtxids.Perm
    ((queued.map fun candidate => candidate.expected.wtxid) ++ pending.active.keys)
  facts : ∀ (outpoint : OutPoint) state, pending.facts[outpoint]? = some state →
    pending'.facts[outpoint]? = some state
  holds : Holds P pending'

/-- Activation takes candidates from the queue, one by one. -/
theorem activateLoop_admits {P : ExpectedVariant → Transaction → Prop}
    (variants : BTreeMap Txid CurrentVariant) (limits : ResolverLimits) :
    ∀ (queued : List PreparedCandidate) (pending : PendingSlice), Shaped pending →
      ((queued.map fun candidate => candidate.expected.wtxid) ++ pending.active.keys).Nodup →
      (∀ candidate ∈ queued, P candidate.expected candidate.transaction) →
      (∀ (key : String) candidate, pending.active[key]? = some candidate →
        P candidate.expected candidate.transaction) →
      Admits P queued pending (activateLoop variants limits queued pending)
  | [], pending, h, _, hQueued, hActive =>
    ⟨⟨h.fairOrder, h.keyed, h.facts⟩, rfl, List.Perm.refl _, fun _ _ => id, hQueued, hActive⟩
  | next :: rest, pending, h, hNodup, hQueued, hActive => by
    simp only [activateLoop]
    split
    · exact ⟨⟨h.fairOrder, h.keyed, h.facts⟩, rfl, List.Perm.refl _, fun _ _ => id, hQueued, hActive⟩
    · rw [List.map_cons, List.cons_append] at hNodup
      obtain ⟨hFresh, hRest⟩ := List.nodup_cons.mp hNodup
      have hNew : next.expected.wtxid ∉ pending.active := fun hMem =>
        hFresh (List.mem_append_right _ (Std.ExtTreeMap.mem_keys.mpr hMem))
      -- the candidate's wtxid goes from the queue to the active ones
      have hPlace : ((rest.map fun candidate => candidate.expected.wtxid) ++
          (pending.activate variants next).active.keys).Perm
          (next.expected.wtxid :: ((rest.map fun candidate => candidate.expected.wtxid) ++
            pending.active.keys)) :=
        ((BTreeMap.keys_insert_perm _ hNew).append_left _).trans List.perm_middle
      have hHeld : ∀ (key : String) candidate,
          (pending.activate variants next).active[key]? = some candidate →
          P candidate.expected candidate.transaction := by
        intro key candidate hGet
        have hCases : (pending.active.insert next.expected.wtxid _)[key]? = some candidate := hGet
        rw [BTreeMap.getElem?_insert_eq] at hCases
        split at hCases
        · rw [← Option.some.inj hCases]
          exact hQueued next List.mem_cons_self
        · exact hActive key candidate hCases
      have hLater := activateLoop_admits variants limits rest (pending.activate variants next)
        (h.activate variants hNew) (hPlace.symm.nodup (List.nodup_cons.mpr ⟨hFresh, hRest⟩))
        (fun candidate hMem => hQueued candidate (List.mem_cons_of_mem next hMem)) hHeld
      exact ⟨hLater.shaped, hLater.bytes.trans (activate_readyScriptBytes pending variants next),
        hLater.wtxids.trans hPlace,
        fun outpoint state hGet => hLater.facts outpoint state (activate_get hGet), hLater.holds⟩

-- ---------------------------------------------------------------------------
-- The invariant
-- ---------------------------------------------------------------------------

/-- **The representation invariant.** -/
structure Window (limits : ResolverLimits) (pending : PendingSlice) : Prop extends
    Counted limits pending, Shaped pending

/-- A counted move keeps the window. -/
theorem Window.moved (h : Window limits pending)
    (hMoved : Counted limits pending' ∧ Moved (fun _ _ => True) (fun _ => True) pending pending') :
    Window limits pending' :=
  ⟨hMoved.1, h.toShaped.moved hMoved.2⟩

theorem Window.closed (h : Window limits pending) :
    Counted limits pending ∧ Moved (fun _ _ => True) (fun _ => True) pending pending :=
  ⟨h.toCounted, Moved.refl pending⟩

/-- Activation keeps the window, and every candidate. -/
theorem Window.activateWaiting {P : ExpectedVariant → Transaction → Prop}
    (h : Window limits pending) (hNodup : pending.wtxids.Nodup) (hHolds : Holds P pending)
    (variants : BTreeMap Txid CurrentVariant) :
    Window limits (pending.activateWaiting variants limits) ∧
      Admits P pending.queued pending (pending.activateWaiting variants limits) := by
  have hAdmits := activateLoop_admits variants limits pending.queued pending h.toShaped hNodup
    hHolds.1 hHolds.2
  have hBytes := hAdmits.bytes
  have hExact := h.exact
  have hRecount : Shaped (pending.activateWaiting variants limits) :=
    hAdmits.shaped.moved (@recountScriptBytes_moved (fun _ _ => True) (fun _ => True) _)
  refine ⟨⟨recountScriptBytes_counted ?_ ?_, hRecount⟩, hRecount, hAdmits.bytes, hAdmits.wtxids,
    hAdmits.facts, hAdmits.holds⟩
  · rw [hBytes, ← hExact]
    exact h.le_limit
  · rw [hBytes, ← hExact]
    exact h.le_u64Max

/-- Dropping candidates keeps the window. -/
theorem Window.keep (h : Window limits pending) {active : BTreeMap String PendingCandidate}
    (hActive : ∀ (key : String) candidate, active[key]? = some candidate →
      pending.active[key]? = some candidate) :
    Window limits { pending with
      active, fairOrder := pending.fairOrder.filter fun key => active.contains key
    }.dropUnreferencedFacts :=
  ⟨dropUnreferencedFacts_counted (h.toCounted.congr rfl rfl), h.toShaped.keep hActive⟩

theorem dropCandidates_get {keys : List String} {key : String} {candidate : PendingCandidate} :
    (pending.dropCandidates keys).active[key]? = some candidate ↔
      pending.active[key]? = some candidate ∧ key ∉ keys := by
  show (pending.active.filter fun key _ => !keys.contains key)[key]? = some candidate ↔ _
  rw [Std.ExtTreeMap.getElem?_filter', Option.filter_eq_some_iff]
  simp

theorem dropCandidate_get {doomed key : String} {candidate : PendingCandidate} :
    (pending.dropCandidate doomed).active[key]? = some candidate ↔
      pending.active[key]? = some candidate ∧ key ≠ doomed := by
  show (pending.active.erase doomed)[key]? = some candidate ↔ _
  rw [BTreeMap.getElem?_erase_eq]
  split
  · next hSame => simp [hSame]
  · next hOther => simp [Ne.symm hOther]

/-- Where the turns are those of the active candidates, dropping one is dropping a list
of one. -/
theorem Shaped.dropCandidate_eq (h : Shaped pending) (doomed : String) :
    pending.dropCandidate doomed = pending.dropCandidates [doomed] := by
  have hActive : pending.active.erase doomed =
      pending.active.filter fun key _ => !([doomed] : List String).contains key := by
    refine Std.ExtTreeMap.ext_getElem? fun key => Option.ext fun candidate => ?_
    have hOne : key ≠ doomed ↔ key ∉ [doomed] := (not_congr List.mem_singleton).symm
    exact dropCandidate_get.trans ((and_congr_right' hOne).trans dropCandidates_get.symm)
  have hOrder : (pending.fairOrder.filter fun key => key != doomed) =
      pending.fairOrder.filter fun key => (pending.active.erase doomed).contains key := by
    refine List.filter_congr fun key hMem => ?_
    have hHeld : pending.active.contains key = true :=
      Std.ExtTreeMap.contains_iff_mem.mpr (Std.ExtTreeMap.mem_keys.mp (h.fairOrder.mem_iff.mp hMem))
    rw [Std.ExtTreeMap.contains_erase, hHeld, Bool.and_true, Bool.eq_iff_iff, bne_iff_ne,
      bne_iff_ne, ne_eq, ne_eq, Std.LawfulEqCmp.compare_eq_iff_eq, eq_comm]
  rw [dropCandidate, dropCandidates, hOrder, hActive]

/-- Dropping one candidate keeps the window. -/
theorem Window.dropCandidate (h : Window limits pending) (doomed : String) :
    Window limits (pending.dropCandidate doomed) := by
  rw [h.toShaped.dropCandidate_eq]
  exact h.keep fun key candidate hGet => (dropCandidates_get.mp hGet).1

/-- The key of a candidate chosen for deferral is that of a blocked active one. -/
theorem doomedCandidate_spec {key : String} {freed : Nat}
    (h : pending.doomedCandidate = some (key, freed)) : ∃ candidate,
      pending.active[key]? = some candidate ∧ ∃ outpoint ∈ candidate.required,
        pending.facts[outpoint]?.any FactState.isCapacityBlocked = true := by
  have hFold : ∀ best : String × Nat, pending.doomedCandidate = some best → ∃ candidate,
      pending.active[best.1]? = some candidate ∧ ∃ outpoint ∈ candidate.required,
        pending.facts[outpoint]?.any FactState.isCapacityBlocked = true := by
    unfold doomedCandidate
    refine List.foldlRecOn (motive := fun doomed : Option (String × Nat) =>
      ∀ best, doomed = some best → ∃ candidate, pending.active[best.1]? = some candidate ∧
        ∃ outpoint ∈ candidate.required,
          pending.facts[outpoint]?.any FactState.isCapacityBlocked = true) _ _ ?_ ?_
    · intro best hBest
      cases hBest
    · intro doomed hDoomed next _ best hBest
      split at hBest
      · exact hDoomed best hBest
      · next candidate hGet =>
        split at hBest
        · next hBlocked =>
          dsimp only at hBest
          split at hBest
          · rw [← Option.some.inj hBest]
            exact ⟨candidate, hGet, List.any_eq_true.mp hBlocked⟩
          · exact hDoomed best hBest
        · exact hDoomed best hBest
  exact hFold (key, freed) h

end PendingSlice

-- ---------------------------------------------------------------------------
-- The ledger of a window
-- ---------------------------------------------------------------------------

/-- A slice with the wtxids of the admitted candidates that have left it, and the count
its deferrals reported. -/
structure Ledger where
  pending : PendingSlice
  classified : List String := []
  deferred : List String := []
  deferrals : Nat := 0

namespace Ledger

/-- The ledger of a slice that has just been created. -/
def start [BitcoinCrate] (transactions : List (ExpectedVariant × Transaction))
    (variants : BTreeMap Txid CurrentVariant) (limits : ResolverLimits) : Ledger where
  pending := PendingSlice.new transactions variants limits

/-- The wtxids that are no longer active. -/
def dropped (pending pending' : PendingSlice) : List String :=
  pending.active.keys.filter fun wtxid => !pending'.active.contains wtxid

/-- After a deferral. -/
def defer (ledger : Ledger) (result : Nat × PendingSlice) : Ledger :=
  { ledger with
    pending := result.2
    deferred := ledger.deferred ++ dropped ledger.pending result.2
    deferrals := ledger.deferrals + result.1 }

/-- After `classify_ready`. -/
def classify (ledger : Ledger) (result : List CachedClassification × PendingSlice) : Ledger :=
  { ledger with
    pending := result.2
    classified := ledger.classified ++ result.1.map fun cached => cached.classification.wtxid }

/-- One operation on the slice, with whatever it is given. -/
inductive Step [BitcoinCrate] (limits : ResolverLimits) : Ledger → Ledger → Prop
  | activateWaiting (ledger : Ledger) (variants : BTreeMap Txid CurrentVariant) :
      Step limits ledger { ledger with
        pending := ledger.pending.activateWaiting variants limits }
  | hydrateFromCaches (ledger : Ledger) {variants : BTreeMap Txid CurrentVariant}
      {outputs : BTreeMap Txid CachedOutputs} {confirmed confirmed' : ConfirmedScriptCache}
      {absorbed : PendingSlice.Absorbed}
      (hHydrate : ledger.pending.hydrateFromCaches variants outputs confirmed limits =
        .ok (absorbed, confirmed')) :
      Step limits ledger { ledger with pending := absorbed.pending }
  | hydrateFromTransient (ledger : Ledger) (outputs : BTreeMap Txid CachedOutputs)
      (confirmed : BTreeMap OutPoint Script) :
      Step limits ledger { ledger with
        pending := (ledger.pending.hydrateFromTransient outputs confirmed limits).pending }
  | nextParentWave (ledger : Ledger) (variants : BTreeMap Txid CurrentVariant) :
      Step limits ledger { ledger with
        pending := (ledger.pending.nextParentWave variants limits).2 }
  | nextConfirmedWave (ledger : Ledger) :
      Step limits ledger { ledger with pending := (ledger.pending.nextConfirmedWave limits).2 }
  | applyParentTransaction (ledger : Ledger) (expected : ExpectedVariant)
      (transaction : Transaction) :
      Step limits ledger { ledger with
        pending := (ledger.pending.applyParentTransaction expected transaction limits).2.pending }
  | fallBackParentToGettxout (ledger : Ledger) (parentTxid : Txid) :
      Step limits ledger { ledger with
        pending := ledger.pending.fallBackParentToGettxout parentTxid }
  | applyConfirmedValue (ledger : Ledger) (outpoint : OutPoint) (value : RpcValue Script) :
      Step limits ledger { ledger with
        pending := (ledger.pending.applyConfirmedValue outpoint value limits).pending }
  | markCapacityBlocked (ledger : Ledger) (outpoint : OutPoint) :
      Step limits ledger { ledger with pending := ledger.pending.markCapacityBlocked outpoint }
  | deferOneCapacityBlockedFact (ledger : Ledger) :
      Step limits ledger { ledger with pending := ledger.pending.deferOneCapacityBlockedFact.2 }
  | deferIfAttemptsExhausted (ledger : Ledger) (outpoint : OutPoint) :
      Step limits ledger { ledger with
        pending := ledger.pending.deferIfAttemptsExhausted outpoint }
  | deferExhaustedCandidates (ledger : Ledger) :
      Step limits ledger (ledger.defer ledger.pending.deferExhaustedCandidates)
  | deferCapacityBlockedCandidate (ledger : Ledger) :
      Step limits ledger (ledger.defer ledger.pending.deferCapacityBlockedCandidate)
  | classifyReady (ledger : Ledger) {result : List CachedClassification × PendingSlice}
      (hReady : ledger.pending.classifyReady = .ok result) :
      Step limits ledger (ledger.classify result)

variable {limits : ResolverLimits} {transactions : List (ExpectedVariant × Transaction)}
  {ledger later : Ledger}

/-- What every operation keeps of a ledger. -/
structure Kept (limits : ResolverLimits) (transactions : List (ExpectedVariant × Transaction))
    (ledger : Ledger) : Prop where
  window : PendingSlice.Window limits ledger.pending
  places : (ledger.pending.wtxids ++ (ledger.classified ++ ledger.deferred)).Perm
    (transactions.map fun admitted => admitted.1.wtxid)
  holds : PendingSlice.Holds (fun expected transaction => (expected, transaction) ∈ transactions)
    ledger.pending
  deferrals : ledger.deferrals = ledger.deferred.length

/-- A step out of a kept ledger: what is kept, and the facts still required. -/
structure Follows (limits : ResolverLimits) (transactions : List (ExpectedVariant × Transaction))
    (ledger ledger' : Ledger) : Prop extends Kept limits transactions ledger' where
  ready : ∀ (outpoint : OutPoint) script,
    ledger.pending.facts[outpoint]? = some (.ready script) →
    ledger'.pending.Requires outpoint →
    ledger'.pending.facts[outpoint]? = some (.ready script)
  classified : ledger.classified <+: ledger'.classified
  deferred : ledger.deferred <+: ledger'.deferred

/-- No candidate stands twice. -/
theorem Kept.wtxids_nodup (h : Kept limits transactions ledger)
    (hDistinct : (transactions.map fun admitted => admitted.1.wtxid).Nodup) :
    ledger.pending.wtxids.Nodup :=
  (List.nodup_append.mp (h.places.symm.nodup hDistinct)).1

/-- An operation that only moves facts. -/
theorem Kept.moved (h : Kept limits transactions ledger) {pending' : PendingSlice}
    (hMoved : PendingSlice.Counted limits pending' ∧
      PendingSlice.Moved (fun _ _ => True) (fun _ => True) ledger.pending pending') :
    Follows limits transactions ledger { ledger with pending := pending' } where
  window := h.window.moved hMoved
  places := by
    refine List.Perm.trans (List.Perm.append_right _ ?_) h.places
    show (pending'.queued.map _ ++ pending'.active.keys).Perm _
    rw [hMoved.2.queued]
    exact (BTreeMap.keys_perm hMoved.2.mem_active).append_left _
  holds := by
    refine ⟨fun candidate hMem => h.holds.1 candidate (hMoved.2.queued ▸ hMem),
      fun key candidate' hGet => ?_⟩
    obtain ⟨candidate, hOld, hSame⟩ := hMoved.2.active_from hGet
    show (candidate'.expected, candidate'.transaction) ∈ transactions
    rw [hSame.expected, hSame.transaction]
    exact h.holds.2 key candidate hOld
  deferrals := h.deferrals
  ready outpoint script hGet _ := hMoved.2.ready hGet
  classified := List.prefix_refl _
  deferred := List.prefix_refl _

/-- An operation that takes candidates out, with their turns and the facts only they
need. -/
theorem Kept.keep (h : Kept limits transactions ledger)
    {active : BTreeMap String PendingCandidate} {gone : List String} (hNodup : gone.Nodup)
    (hActive : ∀ (key : String) candidate, active[key]? = some candidate ↔
      ledger.pending.active[key]? = some candidate ∧ key ∉ gone)
    (hGone : ∀ key ∈ gone, key ∈ ledger.pending.active) (classified deferred : List String)
    (hPlaces : (gone ++ (ledger.classified ++ ledger.deferred)).Perm
      (classified ++ deferred))
    (hClassified : ledger.classified <+: classified) (hDeferred : ledger.deferred <+: deferred) :
    Follows limits transactions ledger {
      pending := { ledger.pending with
        active
        fairOrder := ledger.pending.fairOrder.filter fun key => active.contains key
      }.dropUnreferencedFacts
      classified, deferred, deferrals := deferred.length } where
  window := h.window.keep fun key candidate hGet => ((hActive key candidate).mp hGet).1
  places := by
    have hKeys : (active.keys ++ gone).Perm ledger.pending.active.keys := by
      refine BTreeMap.keys_append_perm hNodup (fun key => ?_) hGone
      rw [Std.ExtTreeMap.mem_iff_isSome_getElem?, Option.isSome_iff_exists,
        Std.ExtTreeMap.mem_iff_isSome_getElem?, Option.isSome_iff_exists]
      simp only [hActive, exists_and_right]
    refine List.Perm.trans ?_ h.places
    show ((ledger.pending.queued.map _ ++ active.keys) ++ (classified ++ deferred)).Perm
      ((ledger.pending.queued.map _ ++ ledger.pending.active.keys) ++ _)
    refine (hPlaces.symm.append_left _).trans ?_
    rw [List.append_assoc, List.append_assoc, ← List.append_assoc active.keys]
    exact (hKeys.append_right _).append_left _
  holds := ⟨h.holds.1, fun key candidate hGet =>
    h.holds.2 key candidate ((hActive key candidate).mp hGet).1⟩
  deferrals := rfl
  ready outpoint script hGet hRequires :=
    (dropUnreferencedFacts_get _).mpr ⟨hGet, hRequires⟩
  classified := hClassified
  deferred := hDeferred

/-- Activation keeps the account. -/
theorem Kept.activateWaiting (h : Kept limits transactions ledger)
    (hDistinct : (transactions.map fun admitted => admitted.1.wtxid).Nodup)
    (variants : BTreeMap Txid CurrentVariant) :
    Follows limits transactions ledger { ledger with
      pending := ledger.pending.activateWaiting variants limits } := by
  obtain ⟨hWindow, hAdmits⟩ :=
    h.window.activateWaiting (h.wtxids_nodup hDistinct) h.holds variants
  exact {
    window := hWindow
    places := (hAdmits.wtxids.append_right _).trans h.places
    holds := hAdmits.holds
    deferrals := h.deferrals
    ready := fun outpoint script hGet _ => hAdmits.facts outpoint _ hGet
    classified := List.prefix_refl _
    deferred := List.prefix_refl _ }

/-- Dropping candidates that are active, once each, under any count that is theirs. -/
theorem Kept.dropCandidates (h : Kept limits transactions ledger) {keys : List String}
    (hNodup : keys.Nodup) (hKeys : ∀ key ∈ keys, key ∈ ledger.pending.active) :
    Follows limits transactions ledger
      (ledger.defer (keys.length, ledger.pending.dropCandidates keys)) := by
  have hGone : (dropped ledger.pending (ledger.pending.dropCandidates keys)).Perm keys := by
    unfold dropped
    rw [List.perm_ext_iff_of_nodup ((BTreeMap.nodup_keys _).filter _) hNodup]
    intro key
    have hLeft : key ∈ (ledger.pending.dropCandidates keys).active ↔
        key ∈ ledger.pending.active ∧ key ∉ keys := by
      rw [Std.ExtTreeMap.mem_iff_isSome_getElem?, Option.isSome_iff_exists,
        Std.ExtTreeMap.mem_iff_isSome_getElem?, Option.isSome_iff_exists]
      simp only [PendingSlice.dropCandidates_get, exists_and_right]
    rw [List.mem_filter, Std.ExtTreeMap.mem_keys, Bool.not_eq_true', ← Bool.not_eq_true,
      Std.ExtTreeMap.contains_iff_mem, hLeft]
    by_cases hMem : key ∈ keys
    · simp [hMem, hKeys key hMem]
    · simp [hMem]
  have hPlaces : (keys ++ (ledger.classified ++ ledger.deferred)).Perm (ledger.classified ++
      (ledger.deferred ++ dropped ledger.pending (ledger.pending.dropCandidates keys))) := by
    rw [← List.append_assoc ledger.classified]
    exact List.perm_append_comm.trans (hGone.symm.append_left _)
  have hKeep := h.keep hNodup (fun key candidate => PendingSlice.dropCandidates_get) hKeys
    ledger.classified _ hPlaces (List.prefix_refl _) (List.prefix_append _ _)
  have hCount : ledger.deferrals + keys.length = (ledger.deferred ++
      dropped ledger.pending (ledger.pending.dropCandidates keys)).length := by
    rw [List.length_append, hGone.length_eq, h.deferrals]
  exact ⟨⟨hKeep.window, hKeep.places, hKeep.holds, hCount⟩, hKeep.ready, hKeep.classified,
    hKeep.deferred⟩

theorem dropped_self (pending : PendingSlice) : dropped pending pending = [] := by
  rw [dropped, List.filter_eq_nil_iff]
  intro wtxid hMem
  simpa [Std.ExtTreeMap.contains_iff_mem] using Std.ExtTreeMap.mem_keys.mp hMem

/-- Deferring exhausted candidates keeps the account. -/
theorem Kept.deferExhaustedCandidates (h : Kept limits transactions ledger) :
    Follows limits transactions ledger
      (ledger.defer ledger.pending.deferExhaustedCandidates) := by
  simp only [PendingSlice.deferExhaustedCandidates]
  split
  · simp only [defer, dropped_self, List.append_nil, Nat.add_zero]
    exact h.moved h.window.closed
  · refine h.dropCandidates ((PendingSlice.nodup_keys ledger.pending.active).sublist
      (List.filter_sublist.map Prod.fst)) ?_
    intro key hMem
    obtain ⟨entry, hEntry, rfl⟩ := List.mem_map.mp hMem
    have hGet := BTreeMap.mem_toList.mp (List.mem_filter.mp hEntry).1
    exact Std.ExtTreeMap.mem_iff_isSome_getElem?.mpr (by rw [hGet]; rfl)

/-- Deferring a blocked candidate keeps the account. -/
theorem Kept.deferCapacityBlockedCandidate (h : Kept limits transactions ledger) :
    Follows limits transactions ledger
      (ledger.defer ledger.pending.deferCapacityBlockedCandidate) := by
  simp only [PendingSlice.deferCapacityBlockedCandidate]
  split
  · simp only [defer, dropped_self, List.append_nil, Nat.add_zero]
    exact h.moved h.window.closed
  · next doomed freed hDoomed =>
    obtain ⟨candidate, hGet, -⟩ := PendingSlice.doomedCandidate_spec hDoomed
    rw [h.window.toShaped.dropCandidate_eq]
    refine h.dropCandidates (List.nodup_singleton doomed) ?_
    intro key hMem
    rw [List.mem_singleton.mp hMem]
    exact Std.ExtTreeMap.mem_iff_isSome_getElem?.mpr (by rw [hGet]; rfl)

theorem evaluateCandidate_wtxid [BitcoinCrate] {facts : BTreeMap OutPoint FactState}
    {candidate : PendingCandidate} {cached : CachedClassification}
    (h : PendingSlice.evaluateCandidate facts candidate = .ok cached) :
    cached.classification.wtxid = candidate.expected.wtxid := by
  obtain ⟨prevouts, -, hRest⟩ := Checks.bind_eq_ok.mp h
  split at hRest
  · cases hRest
  · rw [← Except.ok.inj hRest]
    rfl

/-- Classifying what is ready keeps the account. -/
theorem Kept.classifyReady [BitcoinCrate] (h : Kept limits transactions ledger)
    {result : List CachedClassification × PendingSlice}
    (hReady : ledger.pending.classifyReady = .ok result) :
    Follows limits transactions ledger (ledger.classify result) := by
  obtain ⟨classifications, pending'⟩ := result
  obtain ⟨hEvaluated, rfl⟩ := PendingSlice.classifyReady_eq_ok.mp hReady
  -- each classification is filed under the key it was evaluated for
  have hWtxids : classifications.map (fun cached => cached.classification.wtxid) =
      ledger.pending.readyKeys := by
    have hEach : List.Forall₂ (fun key (cached : CachedClassification) =>
        cached.classification.wtxid = key) ledger.pending.readyKeys classifications := by
      refine hEvaluated.imp fun key cached hCached => ?_
      obtain ⟨candidate, hGet, hOk⟩ := PendingSlice.evaluateKey_eq_ok.mp hCached
      rw [evaluateCandidate_wtxid hOk, h.window.keyed key candidate hGet]
    have hEqual : List.Forall₂ Eq ledger.pending.readyKeys
        (classifications.map fun cached => cached.classification.wtxid) :=
      List.forall₂_map_right_iff.mpr (hEach.imp fun _ _ hEq => hEq.symm)
    exact (List.forall₂_eq_eq_eq ▸ hEqual : _ = _).symm
  have hActive : ∀ (key : String) candidate,
      (PendingSlice.eraseAll ledger.pending.readyKeys ledger.pending.active)[key]? =
          some candidate ↔
        ledger.pending.active[key]? = some candidate ∧ key ∉ ledger.pending.readyKeys := by
    intro key candidate
    rw [PendingSlice.eraseAll_get]
    by_cases hMem : key ∈ ledger.pending.readyKeys
    · simp [hMem]
    · simp [hMem]
  have hPlaces : (ledger.pending.readyKeys ++ (ledger.classified ++ ledger.deferred)).Perm
      ((ledger.classified ++ classifications.map fun cached => cached.classification.wtxid) ++
        ledger.deferred) := by
    rw [hWtxids, ← List.append_assoc]
    exact List.perm_append_comm.append_right _
  have hGone : ∀ key ∈ ledger.pending.readyKeys, key ∈ ledger.pending.active := by
    intro key hMem
    obtain ⟨candidate, hGet, -⟩ := PendingSlice.mem_readyKeys.mp hMem
    exact Std.ExtTreeMap.mem_iff_isSome_getElem?.mpr (by rw [hGet]; rfl)
  have hKeep := h.keep (PendingSlice.nodup_readyKeys _) hActive hGone _ ledger.deferred hPlaces
    (List.prefix_append _ _) (List.prefix_refl _)
  exact ⟨⟨hKeep.window, hKeep.places, hKeep.holds, h.deferrals⟩, hKeep.ready, hKeep.classified,
    hKeep.deferred⟩

/-- **One operation.** -/
theorem Kept.step [BitcoinCrate] (h : Kept limits transactions ledger)
    (hDistinct : (transactions.map fun admitted => admitted.1.wtxid).Nodup) {ledger' : Ledger}
    (hStep : Step limits ledger ledger') : Follows limits transactions ledger ledger' := by
  have hClosed := PendingSlice.closed_counted limits ledger.pending
  have hStart := h.window.closed
  cases hStep with
  | activateWaiting variants => exact h.activateWaiting hDistinct variants
  | hydrateFromCaches hHydrate => exact h.moved (hClosed.hydrateFromCaches hStart hHydrate)
  | hydrateFromTransient outputs confirmed =>
    exact h.moved (hClosed.hydrateFromTransient hStart outputs confirmed)
  | nextParentWave variants => exact h.moved (hClosed.nextParentWave hStart variants)
  | nextConfirmedWave => exact h.moved (hClosed.nextConfirmedWave hStart)
  | applyParentTransaction expected transaction =>
    exact h.moved (hClosed.applyParentTransaction hStart expected transaction)
  | fallBackParentToGettxout parentTxid => exact h.moved (hClosed.fallBack parentTxid hStart)
  | applyConfirmedValue outpoint value =>
    exact h.moved (hClosed.applyConfirmedValue hStart outpoint value)
  | markCapacityBlocked outpoint => exact h.moved (hClosed.block outpoint hStart)
  | deferOneCapacityBlockedFact => exact h.moved (hClosed.deferOneCapacityBlockedFact hStart)
  | deferIfAttemptsExhausted outpoint =>
    exact h.moved (hClosed.deferIfAttemptsExhausted hStart outpoint)
  | deferExhaustedCandidates => exact h.deferExhaustedCandidates
  | deferCapacityBlockedCandidate => exact h.deferCapacityBlockedCandidate
  | classifyReady hReady => exact h.classifyReady hReady

/-- A new slice accounts for everything admitted. -/
theorem kept_start [BitcoinCrate] (limits : ResolverLimits)
    (hDistinct : (transactions.map fun admitted => admitted.1.wtxid).Nodup)
    (variants : BTreeMap Txid CurrentVariant) :
    Kept limits transactions (start transactions variants limits) := by
  have hEmpty : ∀ {κ ν : Type} [Ord κ] [Std.TransOrd κ] (key : κ),
      (∅ : BTreeMap κ ν)[key]? = none := fun _ => Std.ExtTreeMap.getElem?_empty
  have hNoKeys : (∅ : BTreeMap String PendingCandidate).keys = [] :=
    Std.ExtTreeMap.keys_eq_nil_iff.mpr rfl
  -- the slice that `new` fills
  have hQueue : Kept limits transactions {
      pending := {
        queued := transactions.map fun admitted => ⟨admitted.1, admitted.2⟩
        active := ∅, fairOrder := [], facts := ∅, deferredFacts := ∅
        rawOutputs := PendingSlice.rawOutputsOf transactions, pendingScriptBytes := 0 } } := by
    refine ⟨⟨⟨(BTreeMap.sumBy_empty _).symm, Nat.zero_le _, Nat.zero_le _⟩,
      by rw [hNoKeys], fun key candidate hGet => ?_, fun outpoint => ⟨fun hMem => ?_, ?_⟩⟩, ?_,
      ⟨fun candidate hMem => ?_, fun key candidate hGet => ?_⟩, rfl⟩
    · rw [hEmpty] at hGet
      cases hGet
    · rw [Std.ExtTreeMap.mem_iff_isSome_getElem?, hEmpty] at hMem
      cases hMem
    · rintro ⟨key, candidate, hGet, -⟩
      rw [hEmpty] at hGet
      cases hGet
    · simp [PendingSlice.wtxids, hNoKeys, Function.comp_def]
    · obtain ⟨admitted, hAdmitted, rfl⟩ := List.mem_map.mp hMem
      exact hAdmitted
    · rw [hEmpty] at hGet
      cases hGet
  exact (hQueue.activateWaiting hDistinct variants).toKept

/-- **A run keeps the ledger.** -/
theorem Kept.run [BitcoinCrate] (h : Kept limits transactions ledger)
    (hDistinct : (transactions.map fun admitted => admitted.1.wtxid).Nodup)
    (hRun : ReflTransGen (Step limits) ledger later) :
    Kept limits transactions later ∧ ledger.classified <+: later.classified ∧
      ledger.deferred <+: later.deferred := by
  induction hRun with
  | refl => exact ⟨h, List.prefix_refl _, List.prefix_refl _⟩
  | tail _ hStep ih =>
    have hFollows := ih.1.step hDistinct hStep
    exact ⟨hFollows.toKept, ih.2.1.trans hFollows.classified, ih.2.2.trans hFollows.deferred⟩

/-- What the window promises of a ledger: its fair order, fact table and byte counter
are exact, a ready script stays as long as it is required, and every admitted candidate
is in one place, for good once it is classified or deferred. -/
structure Exact [BitcoinCrate] (limits : ResolverLimits)
    (transactions : List (ExpectedVariant × Transaction)) (ledger : Ledger) : Prop where
  fairOrder_nodup : ledger.pending.fairOrder.Nodup
  fairOrder_perm : ledger.pending.fairOrder.Perm ledger.pending.active.keys
  facts : ∀ outpoint : OutPoint,
    outpoint ∈ ledger.pending.facts ↔ ledger.pending.Requires outpoint
  bytes : ledger.pending.pendingScriptBytes =
    BTreeMap.sumBy (fun _ state => state.readyBytes) ledger.pending.facts
  bytes_le : ledger.pending.pendingScriptBytes ≤ limits.maxPendingScriptBytes
  script : ∀ (outpoint : OutPoint) script later,
    ledger.pending.facts[outpoint]? = some (.ready script) →
    ReflTransGen (fun before after => Step limits before after ∧ after.pending.Requires outpoint)
      ledger later →
    later.pending.facts[outpoint]? = some (.ready script)
  candidates : (ledger.pending.wtxids ++ (ledger.classified ++ ledger.deferred)).Perm
    (transactions.map fun admitted => admitted.1.wtxid)
  candidates_nodup : (ledger.pending.wtxids ++ (ledger.classified ++ ledger.deferred)).Nodup
  queued : ∀ candidate ∈ ledger.pending.queued,
    (candidate.expected, candidate.transaction) ∈ transactions
  active : ∀ (key : String) candidate, ledger.pending.active[key]? = some candidate →
    candidate.expected.wtxid = key ∧ (candidate.expected, candidate.transaction) ∈ transactions
  settled : ∀ later, ReflTransGen (Step limits) ledger later →
    ledger.classified <+: later.classified ∧ ledger.deferred <+: later.deferred ∧
      ∀ wtxid ∈ ledger.classified ++ ledger.deferred, wtxid ∉ later.pending.wtxids
  deferrals : ledger.deferrals = ledger.deferred.length

/-- An account of distinct candidates is exact. -/
theorem Kept.exact [BitcoinCrate] (h : Kept limits transactions ledger)
    (hDistinct : (transactions.map fun admitted => admitted.1.wtxid).Nodup) :
    Exact limits transactions ledger where
  fairOrder_nodup := h.window.fairOrder.symm.nodup (BTreeMap.nodup_keys _)
  fairOrder_perm := h.window.fairOrder
  facts := h.window.facts
  bytes := h.window.exact
  bytes_le := h.window.le_limit
  script outpoint script later hGet hRun := by
    have hAlong : Kept limits transactions later ∧
        later.pending.facts[outpoint]? = some (.ready script) := by
      induction hRun with
      | refl => exact ⟨h, hGet⟩
      | tail _ hStep ih =>
        have hFollows := ih.1.step hDistinct hStep.1
        exact ⟨hFollows.toKept, hFollows.ready outpoint script ih.2 hStep.2⟩
    exact hAlong.2
  candidates := h.places
  candidates_nodup := h.places.symm.nodup hDistinct
  queued := h.holds.1
  active key candidate hGet :=
    ⟨h.window.keyed key candidate hGet, h.holds.2 key candidate hGet⟩
  settled later hRun := by
    obtain ⟨hLater, hClassified, hDeferred⟩ := h.run hDistinct hRun
    refine ⟨hClassified, hDeferred, fun wtxid hMem hHeld => ?_⟩
    have hApart := (List.nodup_append.mp (hLater.places.symm.nodup hDistinct)).2.2
    refine hApart wtxid hHeld wtxid ?_ rfl
    rcases List.mem_append.mp hMem with hBefore | hBefore
    · exact List.mem_append_left _ (hClassified.subset hBefore)
    · exact List.mem_append_right _ (hDeferred.subset hBefore)
  deferrals := h.deferrals

/-- **The pending window.** Whatever is done to a slice created from candidates of
distinct wtxids, in whatever order. -/
theorem pending_window_exact [BitcoinCrate] (limits : ResolverLimits)
    (transactions : List (ExpectedVariant × Transaction)) (variants : BTreeMap Txid CurrentVariant)
    (hDistinct : (transactions.map fun admitted => admitted.1.wtxid).Nodup) {ledger : Ledger}
    (hRun : ReflTransGen (Step limits) (start transactions variants limits) ledger) :
    Exact limits transactions ledger :=
  ((kept_start limits hDistinct variants).run hDistinct hRun).1.exact hDistinct

/-- Two candidates that spend the same output. -/
def twoSpends : List (ExpectedVariant × Transaction) :=
  let spend := { previousOutput := ⟨7, 0⟩, scriptSig := [], sequence := 0, witness := [] }
  [({ txid := "01", wtxid := "11", vsize := 100 },
      { version := 2, lockTime := 0, input := [spend], output := [] }),
    ({ txid := "02", wtxid := "12", vsize := 100 },
      { version := 2, lockTime := 1, input := [spend], output := [] })]

/-- Their slice once it has asked for the output. -/
def twoSpendsAsked : Ledger where
  pending := ((@PendingSlice.new (Reference.crate []) twoSpends ∅
    (ResolverLimits.production 4096)).nextConfirmedWave (ResolverLimits.production 4096)).2

/-- Their slice once it has been given the script. -/
def twoSpendsAnswered : Ledger where
  pending := (twoSpendsAsked.pending.applyConfirmedValue ⟨7, 0⟩ (.found [0x51])
    (ResolverLimits.production 4096)).pending

/-- The sample run: two spends of one output, one of them classified, the other deferred. -/
theorem pending_window_exact_twoSpends :
    @Exact (Reference.crate []) (ResolverLimits.production 4096) twoSpends
      (twoSpendsAnswered.defer twoSpendsAnswered.pending.deferExhaustedCandidates) := by
  let _ : BitcoinCrate := Reference.crate []
  have hAsked : Step (ResolverLimits.production 4096)
      (start twoSpends ∅ (ResolverLimits.production 4096)) twoSpendsAsked := .nextConfirmedWave _
  have hAnswered : Step (ResolverLimits.production 4096) twoSpendsAsked twoSpendsAnswered :=
    .applyConfirmedValue twoSpendsAsked ⟨7, 0⟩ (.found [0x51])
  exact pending_window_exact (ResolverLimits.production 4096) twoSpends ∅ (by decide)
    (.tail (.tail (.single hAsked) hAnswered) (.deferExhaustedCandidates twoSpendsAnswered))

end Ledger

end MempoolAtlas.Classification
