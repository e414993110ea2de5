import MempoolAtlas.Lib.BTree
import MempoolAtlas.Lib.Machine
import MempoolAtlas.Lib.Processes

/-!
# Batch correlation

`src/classification_rpc.rs`: request ids are reserved from one counter shared by
all batches, and the responses of a batch are put back in request order by
their ids. Downstream code zips requests and responses by position, so a slot
must hold the response to its own request or nothing.

Batches run concurrently. A call reserves its ids with the compare-exchange
loop of `fetch_update`; what comes back over the wire is anything at all.

## Results

* `decodeBatchResponse_eq_ok` — what a batch is decoded to, and when.
* `reserved_run` — reserved ids stay apart along every run.
* `batch_correlation` — every response ends under its own request.
-/

namespace MempoolAtlas.Rpc

open Machine

/-- A member of a response object: omitted, `null`, or a raw value. -/
inductive ResponseMember where
  | missing
  | null
  | value (raw : String)
deriving DecidableEq, Repr

/-- A response of a batch. -/
structure ClassificationRpcResponse where
  result : ResponseMember
  error : ResponseMember
  id : Nat
  jsonrpc : Option String
deriving DecidableEq, Repr

/-- Why a batch fails. -/
inductive ClassificationRpcError where
  | emptyBatch
  | requestIdExhausted
  | decodeResponse
  | wrongBatchResponseSize
  | duplicateResponseId (id : Nat)
  | unexpectedResponseId (id : Nat)
deriving DecidableEq, Repr

-- ---------------------------------------------------------------------------
-- Responses
-- ---------------------------------------------------------------------------

/-- The insertion loop of `decode_batch_response`. -/
def insertResponses (byId : BTreeMap Nat ClassificationRpcResponse) :
    List ClassificationRpcResponse →
      Except ClassificationRpcError (BTreeMap Nat ClassificationRpcResponse)
  | [] => .ok byId
  | response :: rest =>
    if byId.contains response.id then .error (.duplicateResponseId response.id)
    else insertResponses (byId.insert response.id response) rest

/-- The expected ids taken out of the map one by one, and what is left of it. -/
def takeExpected (byId : BTreeMap Nat ClassificationRpcResponse) :
    List Nat → List (Option ClassificationRpcResponse) × BTreeMap Nat ClassificationRpcResponse
  | [] => ([], byId)
  | id :: rest =>
    let (ordered, left) := takeExpected (byId.erase id) rest
    (byId[id]? :: ordered, left)

/-- `decode_batch_response` on what `serde_json` makes of the body. The source
reports some id that is left over, in the order of its hash map; here the
lowest. -/
def decodeBatchResponse (body : Option (List ClassificationRpcResponse))
    (expectedIds : List Nat) :
    Except ClassificationRpcError (List (Option ClassificationRpcResponse)) := do
  match body with
  | none => .error .decodeResponse
  | some responses =>
    if responses.length > expectedIds.length then
      .error .wrongBatchResponseSize
    else
      let byId ← insertResponses ∅ responses
      let (ordered, left) := takeExpected byId expectedIds
      match left.keys.head? with
      | some id => .error (.unexpectedResponseId id)
      | none => .ok ordered

/-- The response with an id, if there is one. -/
def responseFor (responses : List ClassificationRpcResponse) (id : Nat) :
    Option ClassificationRpcResponse :=
  responses.find? fun response => response.id == id

/-- The response for an id, when ids are distinct. -/
theorem responseFor_eq_some {responses : List ClassificationRpcResponse}
    (hDistinct : (responses.map ClassificationRpcResponse.id).Nodup) {id : Nat}
    {response : ClassificationRpcResponse} :
    responseFor responses id = some response ↔ response ∈ responses ∧ response.id = id := by
  constructor
  · intro h
    exact ⟨List.mem_of_find?_eq_some h, by simpa using List.find?_some h⟩
  · rintro ⟨hMem, rfl⟩
    induction responses with
    | nil => cases hMem
    | cons first rest ih =>
      obtain ⟨hFirst, hRest⟩ := List.nodup_cons.mp hDistinct
      rcases List.mem_cons.mp hMem with rfl | hMem
      · exact List.find?_cons_of_pos (by simp)
      · have hOther : first.id ≠ response.id := fun hEq =>
          hFirst (hEq ▸ List.mem_map_of_mem hMem)
        rw [responseFor, List.find?_cons_of_neg (by simpa using hOther)]
        exact ih hRest hMem

theorem responseFor_eq_none {responses : List ClassificationRpcResponse} {id : Nat} :
    responseFor responses id = none ↔ ∀ response ∈ responses, response.id ≠ id := by
  simp [responseFor, List.find?_eq_none]

/-- The loop goes through exactly when no id repeats. -/
theorem insertResponses_eq_ok {byId byId' : BTreeMap Nat ClassificationRpcResponse}
    {responses : List ClassificationRpcResponse} :
    insertResponses byId responses = .ok byId' ↔
      ((responses.map ClassificationRpcResponse.id).Nodup ∧
        ∀ response ∈ responses, response.id ∉ byId) ∧
      ∀ id, byId'[id]? = (responseFor responses id).or byId[id]? := by
  induction responses generalizing byId with
  | nil =>
    simp only [insertResponses, Except.ok.injEq, List.map_nil, List.nodup_nil, List.not_mem_nil,
      false_implies, implies_true, and_self, true_and, responseFor, List.find?_nil,
      Option.none_or]
    constructor
    · rintro rfl
      exact fun _ => rfl
    · exact fun h => Std.ExtTreeMap.ext_getElem? fun id => (h id).symm
  | cons response rest ih =>
    rw [insertResponses, List.map_cons, List.nodup_cons, List.forall_mem_cons]
    split
    · next hSeen =>
      have hMem : response.id ∈ byId := Std.ExtTreeMap.contains_iff_mem.mp hSeen
      constructor
      · intro h
        cases h
      · rintro ⟨⟨-, hNew, -⟩, -⟩
        exact absurd hMem hNew
    · next hNew =>
      have hNot : response.id ∉ byId := fun hMem => hNew (Std.ExtTreeMap.contains_iff_mem.mpr hMem)
      have hInsert : ∀ id, id ∉ byId.insert response.id response ↔
          response.id ≠ id ∧ id ∉ byId := by
        intro id
        rw [Std.ExtTreeMap.mem_insert, Std.LawfulEqCmp.compare_eq_iff_eq, not_or]
      have hLookup : ∀ id, (responseFor (response :: rest) id).or byId[id]? =
          if response.id = id then some response
          else (responseFor rest id).or byId[id]? := by
        intro id
        by_cases hSame : response.id = id
        · rw [if_pos hSame, responseFor, List.find?_cons_of_pos (by simpa using hSame),
            Option.some_or]
        · rw [if_neg hSame, responseFor, List.find?_cons_of_neg (by simpa using hSame)]
          rfl
      have hRestNone : response.id ∉ rest.map ClassificationRpcResponse.id →
          responseFor rest response.id = none := by
        intro hFresh
        exact responseFor_eq_none.mpr fun other hMem hEq =>
          hFresh (hEq ▸ List.mem_map_of_mem hMem)
      rw [ih]
      simp only [hInsert, hLookup, BTreeMap.getElem?_insert_eq]
      constructor
      · rintro ⟨⟨hRest, hFresh⟩, hGet⟩
        have hHead : response.id ∉ rest.map ClassificationRpcResponse.id := by
          intro hMem
          obtain ⟨other, hOther, hEq⟩ := List.mem_map.mp hMem
          exact (hFresh other hOther).1 hEq.symm
        refine ⟨⟨⟨hHead, hRest⟩, hNot, fun other hMem => (hFresh other hMem).2⟩, fun id => ?_⟩
        rw [hGet id]
        split
        · next hSame => rw [← hSame, hRestNone hHead, Option.none_or]
        · rfl
      · rintro ⟨⟨⟨hHead, hRest⟩, -, hFresh⟩, hGet⟩
        refine ⟨⟨hRest, fun other hMem => ⟨fun hEq => hHead (hEq ▸ List.mem_map_of_mem hMem),
          hFresh other hMem⟩⟩, fun id => ?_⟩
        rw [hGet id]
        split
        · next hSame => rw [← hSame, hRestNone hHead, Option.none_or]
        · rfl

/-- Taking the expected responses, in their order. -/
theorem takeExpected_eq {byId : BTreeMap Nat ClassificationRpcResponse} {expectedIds : List Nat}
    (hDistinct : expectedIds.Nodup) :
    (takeExpected byId expectedIds).1 = expectedIds.map (fun id => byId[id]?) ∧
      ∀ id, (takeExpected byId expectedIds).2[id]? =
        if id ∈ expectedIds then none else byId[id]? := by
  induction expectedIds generalizing byId with
  | nil => simp [takeExpected]
  | cons first rest ih =>
    obtain ⟨hFirst, hRest⟩ := List.nodup_cons.mp hDistinct
    obtain ⟨hOrdered, hLeft⟩ := @ih (byId.erase first) hRest
    constructor
    · rw [takeExpected, List.map_cons]
      refine congrArg (byId[first]? :: ·) ?_
      rw [hOrdered]
      refine List.map_congr_left fun id hMem => ?_
      have hOther : first ≠ id := fun hEq => hFirst (by rwa [hEq])
      rw [BTreeMap.getElem?_erase_eq, if_neg hOther]
    · intro id
      rw [takeExpected]
      show (takeExpected (byId.erase first) rest).2[id]? = _
      rw [hLeft, BTreeMap.getElem?_erase_eq]
      by_cases hSame : first = id
      · simp [hSame]
      · simp [hSame, Ne.symm hSame]

/-- Responses with expected, distinct ids are indexed. -/
theorem exists_insertResponses {byId : BTreeMap Nat ClassificationRpcResponse}
    {responses : List ClassificationRpcResponse}
    (hIds : (responses.map ClassificationRpcResponse.id).Nodup)
    (hNew : ∀ response ∈ responses, response.id ∉ byId) :
    ∃ byId', insertResponses byId responses = .ok byId' := by
  induction responses generalizing byId with
  | nil => exact ⟨byId, rfl⟩
  | cons response rest ih =>
    obtain ⟨hHead, hRest⟩ := List.nodup_cons.mp hIds
    obtain ⟨hNot, hFresh⟩ := List.forall_mem_cons.mp hNew
    rw [insertResponses, if_neg fun hSeen => hNot (Std.ExtTreeMap.contains_iff_mem.mp hSeen)]
    refine ih hRest fun other hMem hSeen => ?_
    rw [Std.ExtTreeMap.mem_insert, Std.LawfulEqCmp.compare_eq_iff_eq] at hSeen
    rcases hSeen with hEq | hSeen
    · exact hHead (hEq ▸ List.mem_map_of_mem hMem)
    · exact hFresh other hMem hSeen

/-- The map the insertion loop leaves holds each response under its id. -/
theorem insertResponses_empty {responses : List ClassificationRpcResponse} :
    (∃ byId, insertResponses ∅ responses = .ok byId) ↔
      (responses.map ClassificationRpcResponse.id).Nodup := by
  constructor
  · rintro ⟨byId, h⟩
    exact (insertResponses_eq_ok.mp h).1.1
  · exact fun hIds => exists_insertResponses hIds fun _ _ => Std.ExtTreeMap.not_mem_empty

/-- Distinct ids that are all expected are no more than the expected ones. -/
theorem length_le_of_expected {responses : List ClassificationRpcResponse}
    {expectedIds : List Nat} (hIds : (responses.map ClassificationRpcResponse.id).Nodup)
    (hExpected : ∀ response ∈ responses, response.id ∈ expectedIds) :
    responses.length ≤ expectedIds.length := by
  have hSub : responses.map ClassificationRpcResponse.id ⊆ expectedIds := by
    intro id hMem
    obtain ⟨response, hResponse, rfl⟩ := List.mem_map.mp hMem
    exact hExpected response hResponse
  have hLength := (List.subperm_of_subset hIds hSub).length_le
  rwa [List.length_map] at hLength

/-- Nothing is left over exactly when every response was expected. -/
theorem leftover_eq_none {byId : BTreeMap Nat ClassificationRpcResponse}
    {responses : List ClassificationRpcResponse} {expectedIds : List Nat}
    (hDistinct : expectedIds.Nodup) (hGet : ∀ id, byId[id]? = responseFor responses id) :
    (takeExpected byId expectedIds).2.keys.head? = none ↔
      ∀ response ∈ responses, response.id ∈ expectedIds := by
  obtain ⟨-, hLeft⟩ := @takeExpected_eq byId expectedIds hDistinct
  rw [List.head?_eq_none_iff]
  constructor
  · intro hKeys response hResponse
    by_contra hUnexpected
    have hKey : (takeExpected byId expectedIds).2[response.id]? = none := by
      by_contra hSome
      have hMem := BTreeMap.mem_keys_iff.mpr (Option.ne_none_iff_exists'.mp hSome)
      rw [hKeys] at hMem
      cases hMem
    rw [hLeft, if_neg hUnexpected, hGet, responseFor_eq_none] at hKey
    exact hKey response hResponse rfl
  · intro hExpected
    refine List.eq_nil_iff_forall_not_mem.mpr fun id hMem => ?_
    obtain ⟨value, hValue⟩ := BTreeMap.mem_keys_iff.mp hMem
    rw [hLeft] at hValue
    split at hValue
    · cases hValue
    · next hUnexpected =>
      rw [hGet] at hValue
      have hResponse := List.mem_of_find?_eq_some hValue
      have hId : value.id = id := by simpa using List.find?_some hValue
      exact hUnexpected (hId ▸ hExpected value hResponse)

/-- What a batch is decoded to, and when. -/
theorem decodeBatchResponse_eq_ok {responses : List ClassificationRpcResponse}
    {expectedIds : List Nat} (hDistinct : expectedIds.Nodup)
    {ordered : List (Option ClassificationRpcResponse)} :
    decodeBatchResponse (some responses) expectedIds = .ok ordered ↔
      ((responses.map ClassificationRpcResponse.id).Nodup ∧
        ∀ response ∈ responses, response.id ∈ expectedIds) ∧
      ordered = expectedIds.map (responseFor responses) := by
  have hGet : ∀ byId, insertResponses ∅ responses = .ok byId →
      ∀ id, byId[id]? = responseFor responses id := by
    intro byId hInsert id
    rw [(insertResponses_eq_ok.mp hInsert).2 id, Std.ExtTreeMap.getElem?_empty, Option.or_none]
  have hOrdered : ∀ byId, insertResponses ∅ responses = .ok byId →
      (takeExpected byId expectedIds).1 = expectedIds.map (responseFor responses) := by
    intro byId hInsert
    rw [(takeExpected_eq hDistinct).1]
    exact List.map_congr_left fun id _ => hGet byId hInsert id
  simp only [decodeBatchResponse]
  constructor
  · intro h
    split at h
    · cases h
    · cases hInsert : insertResponses ∅ responses with
      | error error =>
        rw [hInsert] at h
        cases h
      | ok byId =>
        rw [hInsert] at h
        simp only [Bind.bind, Except.bind] at h
        split at h
        · cases h
        · next hNone =>
          refine ⟨⟨insertResponses_empty.mp ⟨byId, hInsert⟩,
            (leftover_eq_none hDistinct (hGet byId hInsert)).mp hNone⟩, ?_⟩
          rw [← hOrdered byId hInsert]
          exact (Except.ok.inj h).symm
  · rintro ⟨⟨hIds, hExpected⟩, rfl⟩
    obtain ⟨byId, hInsert⟩ := insertResponses_empty.mpr hIds
    have hFits : ¬responses.length > expectedIds.length :=
      Nat.not_lt.mpr (length_le_of_expected hIds hExpected)
    rw [if_neg hFits, hInsert]
    simp only [Bind.bind, Except.bind]
    rw [(leftover_eq_none hDistinct (hGet byId hInsert)).mpr hExpected, hOrdered byId hInsert]

/-- Everything else is an error. -/
theorem decodeBatchResponse_eq_error {responses : List ClassificationRpcResponse}
    {expectedIds : List Nat} (hDistinct : expectedIds.Nodup)
    (h : ¬((responses.map ClassificationRpcResponse.id).Nodup ∧
      ∀ response ∈ responses, response.id ∈ expectedIds)) :
    ∃ error, decodeBatchResponse (some responses) expectedIds = .error error := by
  cases hDecode : decodeBatchResponse (some responses) expectedIds with
  | error error => exact ⟨error, rfl⟩
  | ok ordered => exact absurd ((decodeBatchResponse_eq_ok hDistinct).mp hDecode).1 h

-- ---------------------------------------------------------------------------
-- Reserving ids
-- ---------------------------------------------------------------------------

/-- A call of `send_batch`: in the `fetch_update` loop of `reserve_ids`, with the
value it last read; waiting for its response under its ids; or returned. -/
inductive BatchCall where
  | reserving (count : Nat) (current : Option Nat)
  | sent (ids : List Nat)
  | answered (ids : List Nat) (body : Option (List ClassificationRpcResponse))
      (outcome : Except ClassificationRpcError (List (Option ClassificationRpcResponse)))
  | refused (error : ClassificationRpcError)

/-- One atomic action of a call on `next_id`. The exchange is the weak one, so it
may fail although the counter has not moved. -/
inductive BatchCall.Step : Nat → BatchCall → Nat → BatchCall → Prop
  | emptyBatch {nextId : Nat} :
      Step nextId (.reserving 0 none) nextId (.refused .emptyBatch)
  | load {nextId count : Nat} (hCount : count ≠ 0) :
      Step nextId (.reserving count none) nextId (.reserving count (some nextId))
  | exhausted {nextId count current : Nat} (hAdd : checkedAdd current count = none) :
      Step nextId (.reserving count (some current)) nextId (.refused .requestIdExhausted)
  | retry {nextId count current next : Nat} (hAdd : checkedAdd current count = some next) :
      Step nextId (.reserving count (some current)) nextId (.reserving count (some nextId))
  | exchange {count current next : Nat} (hAdd : checkedAdd current count = some next) :
      Step current (.reserving count (some current)) next (.sent (List.range' current count))
  | answer {nextId : Nat} {ids : List Nat} (body : Option (List ClassificationRpcResponse)) :
      Step nextId (.sent ids) nextId (.answered ids body (decodeBatchResponse body ids))

/-- Any number of `send_batch` calls on one client. -/
def batches (ι : Type) : Processes ι Nat BatchCall Unit where
  starts call := ∃ count, call = .reserving count none
  step _ nextId call _ nextId' call' := BatchCall.Step nextId call nextId' call'

/-- The ids a call has reserved. -/
def BatchCall.ids : BatchCall → List Nat
  | .sent ids => ids
  | .answered ids _ _ => ids
  | _ => []

/-- What holds of every client: ids handed out are below the counter, distinct,
and in no two batches; and an answer is what its own ids decode to. -/
structure Reserved {ι : Type} (world : World ι Nat BatchCall) : Prop where
  below : ∀ i call, world.procs i = some call → ∀ id ∈ call.ids, id < world.shared
  distinct : ∀ i call, world.procs i = some call → call.ids.Nodup
  apart : ∀ i j call call', i ≠ j → world.procs i = some call → world.procs j = some call' →
    List.Disjoint call.ids call'.ids
  answers : ∀ i ids body outcome, world.procs i = some (.answered ids body outcome) →
    outcome = decodeBatchResponse body ids

/-- Ids only grow. -/
theorem BatchCall.Step.monotone {nextId nextId' : Nat} {call call' : BatchCall}
    (h : BatchCall.Step nextId call nextId' call') : nextId ≤ nextId' := by
  cases h with
  | exchange hAdd => exact (checkedAdd_eq_some.mp hAdd).2 ▸ Nat.le_add_right ..
  | _ => exact Nat.le_refl _

/-- An action keeps a call's ids, or takes a range the counter passes over. -/
theorem BatchCall.Step.ids {nextId nextId' : Nat} {call call' : BatchCall}
    (h : BatchCall.Step nextId call nextId' call') :
    call'.ids = call.ids ∨
      call'.ids.Nodup ∧ ∀ id ∈ call'.ids, nextId ≤ id ∧ id < nextId' := by
  cases h with
  | exchange hAdd =>
    obtain ⟨-, rfl⟩ := checkedAdd_eq_some.mp hAdd
    refine Or.inr ⟨List.nodup_range', fun id hMem => ?_⟩
    rw [BatchCall.ids, List.mem_range'_1] at hMem
    exact hMem
  | _ => exact Or.inl rfl

section
variable {ι : Type} [DecidableEq ι]

/-- A call that is put at `i` and whose ids are new there keeps the client's promises. -/
theorem Reserved.update {world : World ι Nat BatchCall} (h : Reserved world) {i : ι}
    {call' : BatchCall} {nextId' : Nat} (hCounter : world.shared ≤ nextId')
    (hBelow : ∀ id ∈ call'.ids, id < nextId') (hDistinct : call'.ids.Nodup)
    (hApart : ∀ j call, j ≠ i → world.procs j = some call → List.Disjoint call'.ids call.ids)
    (hAnswers : ∀ ids body outcome, call' = .answered ids body outcome →
      outcome = decodeBatchResponse body ids) :
    Reserved ⟨nextId', Function.update world.procs i (some call')⟩ := by
  have hOther : ∀ {j : ι}, j ≠ i →
      (⟨nextId', Function.update world.procs i (some call')⟩ : World ι Nat BatchCall).procs j =
        world.procs j := fun hNe => Function.update_of_ne hNe ..
  have hSelf :
      (⟨nextId', Function.update world.procs i (some call')⟩ : World ι Nat BatchCall).procs i =
        some call' := Function.update_self ..
  refine ⟨fun j call hCall id hMem => ?_, fun j call hCall => ?_,
    fun j k call call₂ hNe hCall hCall₂ => ?_, fun j ids body outcome hCall => ?_⟩
  · by_cases hEq : j = i
    · subst hEq
      rw [hSelf] at hCall
      exact hBelow id (Option.some.inj hCall ▸ hMem)
    · rw [hOther hEq] at hCall
      exact (h.below j call hCall id hMem).trans_le hCounter
  · by_cases hEq : j = i
    · subst hEq
      rw [hSelf] at hCall
      exact Option.some.inj hCall ▸ hDistinct
    · rw [hOther hEq] at hCall
      exact h.distinct j call hCall
  · by_cases hEq : j = i
    · subst hEq
      rw [hSelf] at hCall
      rw [hOther hNe.symm] at hCall₂
      exact Option.some.inj hCall ▸ hApart k call₂ hNe.symm hCall₂
    · rw [hOther hEq] at hCall
      by_cases hEq₂ : k = i
      · subst hEq₂
        rw [hSelf] at hCall₂
        exact Option.some.inj hCall₂ ▸ (hApart j call hEq hCall).symm
      · rw [hOther hEq₂] at hCall₂
        exact h.apart j k call call₂ hNe hCall hCall₂
  · by_cases hEq : j = i
    · subst hEq
      rw [hSelf] at hCall
      exact hAnswers ids body outcome (Option.some.inj hCall)
    · rw [hOther hEq] at hCall
      exact h.answers j ids body outcome hCall

/-- **One step** keeps reserved ids apart. -/
theorem Reserved.step {world world' : World ι Nat BatchCall} {event : ι × Option Unit}
    (hStep : (batches ι).Step world event world') (h : Reserved world) : Reserved world' := by
  cases hStep with
  | start hFree hStarts =>
    obtain ⟨count, rfl⟩ := hStarts
    refine h.update le_rfl ?_ List.nodup_nil ?_ ?_
    · intro id hMem
      cases hMem
    · exact fun _ _ _ _ => List.disjoint_nil_left _
    · intro ids body outcome hCall
      cases hCall
  | @act i call call' _ nextId' hLocal hStep =>
    have hStep : BatchCall.Step world.shared call nextId' call' := hStep
    have hCounter := hStep.monotone
    have hAnswers : ∀ ids body outcome, call' = .answered ids body outcome →
        outcome = decodeBatchResponse body ids := by
      rintro ids body outcome rfl
      cases hStep
      rfl
    rcases hStep.ids with hSame | ⟨hDistinct, hRange⟩
    · refine h.update hCounter ?_ ?_ ?_ hAnswers
      · rw [hSame]
        exact fun id hMem => (h.below i call hLocal id hMem).trans_le hCounter
      · rw [hSame]
        exact h.distinct i call hLocal
      · intro j other hNe hOther
        rw [hSame]
        exact h.apart i j call other hNe.symm hLocal hOther
    · refine h.update hCounter (fun id hMem => (hRange id hMem).2) hDistinct ?_ hAnswers
      intro j other _ hOther id hMem hMem'
      exact absurd (h.below j other hOther id hMem') (Nat.not_lt.mpr (hRange id hMem).1)

/-- Along a run reserved ids stay apart. -/
theorem reserved_run {nextId : Nat} {trace : List (ι × Option Unit)}
    {world : World ι Nat BatchCall}
    (hRun : (batches ι).Run (Processes.initial nextId) trace world) : Reserved world := by
  induction hRun with
  | refl =>
    refine ⟨?_, ?_, ?_, ?_⟩
    · intro i call hCall
      cases hCall
    · intro i call hCall
      cases hCall
    · intro i j call call' _ hCall
      cases hCall
    · intro i ids body outcome hCall
      cases hCall
  | tail _ hStep ih => exact ih.step hStep

end

-- ---------------------------------------------------------------------------
-- Correlation
-- ---------------------------------------------------------------------------

/-- A batch is accepted exactly when its responses name distinct requests of its
own; each request then has its own response or none, however they were ordered. -/
structure Correlates (expectedIds : List Nat) (responses : List ClassificationRpcResponse) :
    Prop where
  accepts : (∃ ordered, decodeBatchResponse (some responses) expectedIds = .ok ordered) ↔
    (responses.map ClassificationRpcResponse.id).Nodup ∧
      ∀ response ∈ responses, response.id ∈ expectedIds
  slots : ∀ ordered, decodeBatchResponse (some responses) expectedIds = .ok ordered →
    List.Forall₂ (fun id slot =>
      (∀ response, slot = some response ↔ response ∈ responses ∧ response.id = id) ∧
      (slot = none ↔ ∀ response ∈ responses, response.id ≠ id)) expectedIds ordered
  order : ∀ responses', responses'.Perm responses → ∀ ordered,
    decodeBatchResponse (some responses') expectedIds = .ok ordered ↔
      decodeBatchResponse (some responses) expectedIds = .ok ordered
  refuses : ¬((responses.map ClassificationRpcResponse.id).Nodup ∧
      ∀ response ∈ responses, response.id ∈ expectedIds) →
    ∃ error, decodeBatchResponse (some responses) expectedIds = .error error

/-- The order of the responses does not matter. -/
theorem responseFor_perm {responses responses' : List ClassificationRpcResponse}
    (hPerm : responses'.Perm responses)
    (hDistinct : (responses.map ClassificationRpcResponse.id).Nodup) (id : Nat) :
    responseFor responses' id = responseFor responses id := by
  have hDistinct' := (hPerm.map ClassificationRpcResponse.id).nodup_iff.mpr hDistinct
  refine Option.ext fun response => ?_
  rw [responseFor_eq_some hDistinct', responseFor_eq_some hDistinct, hPerm.mem_iff]

/-- **A batch is decoded by its ids.** -/
theorem correlates {expectedIds : List Nat} (hExpected : expectedIds.Nodup)
    (responses : List ClassificationRpcResponse) : Correlates expectedIds responses where
  accepts := by
    simp only [decodeBatchResponse_eq_ok hExpected, exists_and_left, exists_eq, and_true]
  slots := by
    intro ordered h
    obtain ⟨⟨hDistinct, -⟩, rfl⟩ := (decodeBatchResponse_eq_ok hExpected).mp h
    rw [List.forall₂_map_right_iff, List.forall₂_same]
    exact fun id _ => ⟨fun response => responseFor_eq_some hDistinct, responseFor_eq_none⟩
  order := by
    intro responses' hPerm ordered
    rw [decodeBatchResponse_eq_ok hExpected, decodeBatchResponse_eq_ok hExpected]
    have hIds := (hPerm.map ClassificationRpcResponse.id).nodup_iff
    have hMembers : (∀ response ∈ responses', response.id ∈ expectedIds) ↔
        ∀ response ∈ responses, response.id ∈ expectedIds :=
      forall_congr' fun response => imp_congr_left hPerm.mem_iff
    rw [hIds, hMembers]
    refine and_congr_right fun hAccepted => ?_
    rw [List.map_congr_left fun id _ => responseFor_perm hPerm hAccepted.1 id]
  refuses := decodeBatchResponse_eq_error hExpected

/-- Responses are put back under their own requests, within a batch and across
any interleaving of batches. -/
theorem batch_correlation :
    (∀ expectedIds : List Nat, expectedIds.Nodup →
      (∀ responses, Correlates expectedIds responses) ∧
      decodeBatchResponse none expectedIds = .error .decodeResponse) ∧
    ∀ (ι : Type) [DecidableEq ι] (nextId : Nat) (trace : List (ι × Option Unit))
      (world : World ι Nat BatchCall),
      (batches ι).Run (Processes.initial nextId) trace world →
      ∀ i j call call', i ≠ j → world.procs i = some call → world.procs j = some call' →
        List.Disjoint call.ids call'.ids ∧
        (∀ responses, ∀ response ∈ responses, response.id ∈ call.ids →
          ∃ error, decodeBatchResponse (some responses) call'.ids = .error error) ∧
        ∀ body ordered, call' = .answered call'.ids body (.ok ordered) →
          ∀ response, some response ∈ ordered → response.id ∈ call'.ids ∧
            response.id ∉ call.ids := by
  refine ⟨fun expectedIds hExpected => ⟨correlates hExpected, rfl⟩, ?_⟩
  intro ι _ nextId trace world hRun i j call call' hNe hCall hCall'
  have hReserved := reserved_run hRun
  have hApart := hReserved.apart i j call call' hNe hCall hCall'
  have hDistinct := hReserved.distinct j call' hCall'
  refine ⟨hApart, fun responses response hMem hId => ?_,
    fun body ordered hAnswer response hSlot => ?_⟩
  · exact (correlates hDistinct responses).refuses fun h => hApart hId (h.2 response hMem)
  · have hOutcome := hReserved.answers j call'.ids body (.ok ordered) (hAnswer ▸ hCall')
    cases body with
    | none => cases hOutcome
    | some responses =>
      obtain ⟨⟨-, hExpected⟩, rfl⟩ := (decodeBatchResponse_eq_ok hDistinct).mp hOutcome.symm
      obtain ⟨id, -, hFound⟩ := List.mem_map.mp hSlot
      have hId := hExpected response (List.mem_of_find?_eq_some hFound)
      exact ⟨hId, fun hForeign => hApart hForeign hId⟩

/-- A result whose id names its request. -/
def numbered (id : Nat) : ClassificationRpcResponse where
  result := .value (toString id)
  error := .missing
  id
  jsonrpc := some "2.0"

/-- Three requests, answered out of order and not all of them. -/
theorem batch_correlation_reordered :
    ∃ ordered, decodeBatchResponse (some [numbered 3, numbered 1]) [1, 2, 3] = .ok ordered :=
  ((batch_correlation.1 [1, 2, 3] (by decide)).1 [numbered 3, numbered 1]).accepts.mpr
    ⟨by decide, by decide⟩

end MempoolAtlas.Rpc
