import MempoolAtlas.Api.Serving
import MempoolAtlas.Lib.Texts
import MempoolAtlas.Runtime.PublisherHistory

/-!
# Conditional reads

A tag names its body: every commit raises `response_revision`, the tag spells
that number, and nothing else writes the cached response. So an `If-None-Match`
that echoes a tag is answered `304` only while its body is still current. The
runs here are those in which `response_revision` never wraps; whether
`status_revision` does is left open.

## Results

* `etagFor_weak_inj` — tags that are weakly equal are equal.
* `tagged_effect` — every commit keeps the tag in step with the body.
* `conditional_reads_sound` — a held tag stands for its body, and `304` is only answered to a tag
  of the current one.
-/

namespace MempoolAtlas.Api

open Checks Model Machine MempoolAtlas.Runtime Classification Processes Texts

-- ---------------------------------------------------------------------------
-- The text of a tag
-- ---------------------------------------------------------------------------

/-- The characters of a tag. -/
theorem etagFor_toList (publisher : CurrentStatePublisher) (snapshot : MempoolSnapshot)
    (responseRevision : Nat) :
    (etagFor publisher snapshot responseRevision).toList =
      'W' :: '/' :: '"' :: (publisher.sourceId.toList ++ '-' ::
        (snapshot.observedAtMs.repr.toList ++ '-' :: (responseRevision.repr.toList ++ ['"']))) := by
  simp [etagFor]

/-- Two tags of one source spell the same response revision. -/
theorem etagFor_inj {publisher : CurrentStatePublisher} {snapshot snapshot' : MempoolSnapshot}
    {revision revision' : Nat}
    (h : etagFor publisher snapshot revision = etagFor publisher snapshot' revision') :
    revision = revision' := by
  have hList := congrArg String.toList h
  rw [etagFor_toList, etagFor_toList] at hList
  simp only [List.cons.injEq, true_and, List.append_cancel_left_eq] at hList
  have hDash := not_mem_repr (by decide : '-'.isDigit = false)
  obtain ⟨-, hRevision⟩ := append_cons_inj (hDash _) (hDash _) hList
  exact repr_toList_inj (List.append_cancel_right hRevision)

-- ---------------------------------------------------------------------------
-- If-None-Match
-- ---------------------------------------------------------------------------

/-- A header matches just when one of its tags does, or is `*`. -/
theorem ifNoneMatchMatches_iff {headers : IfNoneMatch} {currentEtag : String} :
    ifNoneMatchMatches headers currentEtag = true ↔
      ∃ value ∈ headers, ∃ text, value = some text ∧
        ∃ piece ∈ text.toList.splitOn ',',
          trim piece = ['*'] ∨ weakEtag (trim piece) = weakEtag currentEtag.toList := by
  simp only [ifNoneMatchMatches, candidates, List.any_eq_true, List.mem_flatMap, List.mem_filterMap,
    List.mem_map, id_eq, Bool.or_eq_true, beq_iff_eq]
  constructor
  · rintro ⟨_, ⟨text, ⟨value, hValue, rfl⟩, piece, hPiece, rfl⟩, hMatch⟩
    exact ⟨_, hValue, text, rfl, piece, hPiece, hMatch⟩
  · rintro ⟨value, hValue, text, rfl, piece, hPiece, hMatch⟩
    exact ⟨_, ⟨text, ⟨_, hValue, rfl⟩, piece, hPiece, rfl⟩, hMatch⟩

/-- The weak form of a tag is its quoted text. -/
theorem weakEtag_etagFor (publisher : CurrentStatePublisher) (snapshot : MempoolSnapshot)
    (revision : Nat) :
    weakEtag (etagFor publisher snapshot revision).toList =
      (etagFor publisher snapshot revision).toList.drop 2 := by
  rw [etagFor_toList]
  rfl

/-- Tags that are weakly equal are equal. -/
theorem etagFor_weak_inj {publisher : CurrentStatePublisher} {snapshot snapshot' : MempoolSnapshot}
    {revision revision' : Nat}
    (h : weakEtag (etagFor publisher snapshot revision).toList =
      weakEtag (etagFor publisher snapshot' revision').toList) :
    etagFor publisher snapshot revision = etagFor publisher snapshot' revision' := by
  rw [weakEtag_etagFor, weakEtag_etagFor] at h
  apply String.toList_inj.mp
  rw [etagFor_toList, etagFor_toList] at h ⊢
  rw [List.drop_succ_cons, List.drop_succ_cons, List.drop_zero, List.drop_succ_cons,
    List.drop_succ_cons, List.drop_zero] at h
  rw [h]

theorem splitOn_of_not_mem {c : Char} {text : List Char} (h : c ∉ text) :
    text.splitOn c = [text] :=
  List.splitOn_eq_singleton h

theorem trim_of_ends {text : List Char} (hHead : ∀ c ∈ text.head?, isWhitespace c = false)
    (hLast : ∀ c ∈ text.getLast?, isWhitespace c = false) : trim text = text := by
  have hKeep : ∀ {list : List Char}, (∀ c ∈ list.head?, isWhitespace c = false) →
      list.dropWhile isWhitespace = list := by
    intro list hList
    cases list with
    | nil => rfl
    | cons first rest => rw [List.dropWhile_cons, if_neg (by simp [hList first rfl])]
  rw [trim, hKeep hHead, hKeep (by simpa using hLast), List.reverse_reverse]

/-- A valid source identifier has no comma. -/
theorem not_mem_comma {sourceId : String} (h : validateSourceId sourceId = .ok ()) :
    ',' ∉ sourceId.toList := by
  intro hMem
  rw [validateSourceId, ensure_eq_ok, Bool.or_eq_false_iff, Bool.not_eq_false',
    List.all_eq_true] at h
  have hChar := h.2 _ hMem
  revert hChar
  decide

/-- The tag of a source, sent back as it was received, is the one candidate. -/
theorem candidates_etagFor {publisher : CurrentStatePublisher}
    (hSourceId : validateSourceId publisher.sourceId = .ok ()) (snapshot : MempoolSnapshot)
    (revision : Nat) :
    candidates [some (etagFor publisher snapshot revision)] =
      [(etagFor publisher snapshot revision).toList] := by
  have hComma : ',' ∉ (etagFor publisher snapshot revision).toList := by
    have hDigits := not_mem_repr (by decide : ','.isDigit = false)
    rw [etagFor_toList]
    simp only [List.mem_cons, List.mem_append, not_mem_comma hSourceId, hDigits, List.not_mem_nil]
    decide
  have hTrim : trim (etagFor publisher snapshot revision).toList =
      (etagFor publisher snapshot revision).toList := by
    refine trim_of_ends (fun c hHead => ?_) (fun c hLast => ?_)
    · rw [etagFor_toList] at hHead
      obtain rfl : 'W' = c := by simpa using hHead
      rfl
    · obtain ⟨before, hEnd⟩ : ∃ before,
          (etagFor publisher snapshot revision).toList = before ++ ['"'] := by
        rw [etagFor_toList]
        simp only [← List.cons_append, ← List.append_assoc]
        exact ⟨_, rfl⟩
      rw [hEnd, List.getLast?_concat] at hLast
      obtain rfl : '"' = c := Option.some.inj hLast
      rfl
  show (((etagFor publisher snapshot revision).toList.splitOn ',').map trim) ++ [] = _
  rw [splitOn_of_not_mem hComma, List.map_singleton, hTrim, List.append_nil]

-- ---------------------------------------------------------------------------
-- Runs
-- ---------------------------------------------------------------------------

variable {publisher : CurrentStatePublisher} {state state' : CurrentState} {op op' : Op}

/-- How the cached response evolves: only with its revision. -/
structure Advances (state state' : CurrentState) : Prop where
  revision : state.responseRevision ≤ state'.responseRevision
  same : state'.responseRevision = state.responseRevision →
    state'.cachedResponse = state.cachedResponse

theorem Advances.refl (state : CurrentState) : Advances state state := ⟨le_rfl, fun _ => rfl⟩

theorem Advances.trans {a b c : CurrentState} (hab : Advances a b) (hbc : Advances b c) :
    Advances a c where
  revision := hab.revision.trans hbc.revision
  same h := by
    have hb : b.responseRevision = a.responseRevision := by
      have hFirst := hab.revision
      have hSecond := hbc.revision
      omega
    rw [hbc.same (h.trans hb.symm), hab.same hb]

/-- A commit raises the response revision by one. -/
theorem commit_revision {commit : Commit}
    (h : Effect publisher state op state' op' (some commit))
    (hNoWrap : state.responseRevision ≤ state'.responseRevision) :
    state'.responseRevision = state.responseRevision + 1 := by
  cases h with
  | membership | update | lifecycle | failure => exact wrappingAdd_one_of_le hNoWrap

/-- **No effect goes back** in what a reader sees. -/
theorem advances_effect {commit : Option Commit}
    (h : Effect publisher state op state' op' commit)
    (hNoWrap : state.responseRevision ≤ state'.responseRevision) : Advances state state' := by
  refine ⟨hNoWrap, fun hSame => ?_⟩
  cases commit with
  | none => cases h <;> rfl
  | some commit =>
    have hNext := commit_revision h hNoWrap
    omega

section Runs

variable [ResponseEncoder]

/-- Any number of operations of one source, in runs in which
`response_revision` never wraps. -/
def servedSystem (ι : Type) (publisher : CurrentStatePublisher) :
    Processes ι CurrentState Op Commit where
  starts := Op.IsCall
  step _ state op commit state' op' :=
    (∃ task, opStep publisher task state op = some (state', op', commit)) ∧
      state.responseRevision ≤ state'.responseRevision

/-- A body that encodes a response with a snapshot just when `latest` is one. -/
def Shows (latest : Option MempoolSnapshot) (body : Bytes) : Prop :=
  ∃ response, ResponseEncoder.toVec response = some body ∧
    response.snapshot.isSome = latest.isSome

/-- The cached response carries the tag of the latest snapshot, if there is one,
at the current response revision. -/
structure Tagged (publisher : CurrentStatePublisher) (state : CurrentState) : Prop where
  latestGeneration : state.latest.isSome = state.classificationGeneration.isSome
  uncached : state.cachedResponse = none → state.latest = none
  cached : ∀ response, state.cachedResponse = some response →
    Shows state.latest response.body ∧
      response.etag = state.latest.map fun snapshot =>
        etagFor publisher snapshot state.responseRevision

/-- Before anything is published nothing is tagged. -/
theorem tagged_default (publisher : CurrentStatePublisher) : Tagged publisher {} where
  latestGeneration := rfl
  uncached _ := rfl
  cached _ h := by cases h

theorem tagged_replaceCachedResponse {publisher : CurrentStatePublisher} {state : CurrentState}
    {body : Bytes} (hGeneration : state.latest.isSome = state.classificationGeneration.isSome)
    (hShows : Shows state.latest body) :
    Tagged publisher (replaceCachedResponse publisher state body) where
  latestGeneration := hGeneration
  uncached h := by cases h
  cached response h := by
    obtain rfl := Option.some.inj h
    exact ⟨hShows, rfl⟩

/-- What an operation holds for its commit: a body with a snapshot, or one that
has a snapshot just when a generation was read. -/
def CommitShows : Op → Prop
  | .membershipCommit _ prepared _ body => Shows (some prepared.latest) body
  | .updateCommit _ prepared body => Shows (some prepared.latest) body
  | .lifecycleCommit _ _ read body => Shows (some read.latest) body
  | .failureEncode _ read => read.latest.isSome = read.classificationGeneration.isSome
  | .failureCommit _ read body =>
    read.latest.isSome = read.classificationGeneration.isSome ∧ Shows read.latest body
  | _ => True

theorem commitShows_withBody {task : TaskOutcome} {response : SourceSnapshotResponse}
    {next : Bytes → Op}
    (h : ∀ body, ResponseEncoder.toVec response = some body → CommitShows (next body)) :
    CommitShows (.withBody (encodeResponse task response) next) := by
  cases hEncoded : encodeResponse task response with
  | error error => trivial
  | ok body => exact h body (encodeResponse_eq_ok hEncoded)

theorem commitShows_startUpdate (state : CurrentState) (generation : Nat)
    (delta : ClassificationRevisionDelta) (classificationState : ClassificationState) :
    CommitShows (startUpdate state generation delta classificationState) := by
  unfold startUpdate
  split_ifs
  · trivial
  · trivial
  · split
    · trivial
    · split_ifs
      · trivial
      · split <;> trivial

theorem commitShows_silent {task : TaskOutcome} (hTagged : Tagged publisher state)
    (hShows : CommitShows op) (h : opStep publisher task state op = some (state', op', none)) :
    CommitShows op' := by
  cases op with
  | recordPollStarted startedAtMs =>
    simp only [opStep, Option.some.injEq, Prod.mk.injEq] at h
    obtain ⟨-, rfl, -⟩ := h
    trivial
  | publishMembership publication =>
    simp only [opStep, Option.some.injEq, Prod.mk.injEq] at h
    obtain ⟨-, rfl, -⟩ := h
    unfold startMembership
    split_ifs <;> trivial
  | membershipPrepare publication =>
    simp only [opStep] at h
    split at h <;> simp only [Option.some.injEq, Prod.mk.injEq] at h <;> obtain ⟨-, rfl, -⟩ := h <;>
      trivial
  | membershipRead publication prepared =>
    simp only [opStep, Option.some.injEq, Prod.mk.injEq] at h
    obtain ⟨-, rfl, -⟩ := h
    unfold readMembership
    split_ifs <;> trivial
  | membershipEncode publication prepared read =>
    simp only [opStep, Option.some.injEq, Prod.mk.injEq] at h
    obtain ⟨-, rfl, -⟩ := h
    exact commitShows_withBody fun body hBody => ⟨_, hBody, rfl⟩
  | membershipCommit publication prepared read body =>
    simp only [opStep] at h
    split_ifs at h <;> simp only [Option.some.injEq, Prod.mk.injEq, reduceCtorEq, and_false] at h
      <;> obtain ⟨-, rfl, -⟩ := h <;> trivial
  | publishClassificationUpdate generation delta classificationState =>
    cases delta with
    | none =>
      simp only [opStep, Option.some.injEq, Prod.mk.injEq] at h
      obtain ⟨-, rfl, -⟩ := h
      trivial
    | some delta =>
      simp only [opStep] at h
      split_ifs at h <;> simp only [Option.some.injEq, Prod.mk.injEq] at h <;>
        obtain ⟨-, rfl, -⟩ := h
      · trivial
      · exact commitShows_startUpdate state generation delta classificationState
  | updatePrepare update =>
    simp only [opStep, Option.some.injEq, Prod.mk.injEq] at h
    obtain ⟨-, rfl, -⟩ := h
    simp only [prepareUpdate]
    split_ifs
    · trivial
    · split <;> trivial
  | updateEncode update prepared =>
    simp only [opStep, Option.some.injEq, Prod.mk.injEq] at h
    obtain ⟨-, rfl, -⟩ := h
    exact commitShows_withBody fun body hBody => ⟨_, hBody, rfl⟩
  | updateCommit update prepared body =>
    simp only [opStep] at h
    split_ifs at h <;> simp only [Option.some.injEq, Prod.mk.injEq, reduceCtorEq, and_false] at h
      <;> obtain ⟨-, rfl, -⟩ := h <;> trivial
  | lifecycleRead generation classificationState =>
    simp only [opStep, Option.some.injEq, Prod.mk.injEq] at h
    obtain ⟨-, rfl, -⟩ := h
    unfold readLifecycle
    split
    · trivial
    · split
      · trivial
      · split <;> trivial
  | lifecycleEncode generation classificationState read =>
    simp only [opStep, Option.some.injEq, Prod.mk.injEq] at h
    obtain ⟨-, rfl, -⟩ := h
    exact commitShows_withBody fun body hBody => ⟨_, hBody, rfl⟩
  | lifecycleCommit generation classificationState read body =>
    simp only [opStep] at h
    split_ifs at h <;> simp only [Option.some.injEq, Prod.mk.injEq, reduceCtorEq, and_false] at h
      <;> obtain ⟨-, rfl, -⟩ := h <;> trivial
  | publishFailure error =>
    simp only [opStep, Option.some.injEq, Prod.mk.injEq] at h
    obtain ⟨-, rfl, -⟩ := h
    exact hTagged.latestGeneration
  | failureEncode error read =>
    simp only [opStep, Option.some.injEq, Prod.mk.injEq] at h
    obtain ⟨-, rfl, -⟩ := h
    exact commitShows_withBody fun body hBody => ⟨hShows, _, hBody, rfl⟩
  | failureCommit error read body =>
    simp only [opStep] at h
    split_ifs at h <;> simp only [Option.some.injEq, Prod.mk.injEq, reduceCtorEq, and_false] at h
    obtain ⟨-, rfl, -⟩ := h
    trivial
  | returned result => cases h

/-- **One effect keeps the tag in step** with the body. -/
theorem tagged_effect {commit : Option Commit}
    (h : Effect publisher state op state' op' commit) (hTagged : Tagged publisher state)
    (hShows : CommitShows op) : Tagged publisher state' := by
  cases h with
  | silent => exact hTagged
  | polled => exact ⟨hTagged.latestGeneration, hTagged.uncached, hTagged.cached⟩
  | membership => exact tagged_replaceCachedResponse rfl hShows
  | update hGeneration =>
    exact tagged_replaceCachedResponse (congrArg Option.isSome hGeneration).symm hShows
  | @lifecycle generation classificationState read body hGeneration =>
    have hSome : state.latest.isSome = true := by
      rw [hTagged.latestGeneration, hGeneration]
      rfl
    obtain ⟨response, hBody, hSnapshot⟩ := hShows
    exact tagged_replaceCachedResponse hTagged.latestGeneration
      ⟨response, hBody, hSnapshot.trans hSome.symm⟩
  | @failure error read body hStatus hGeneration =>
    obtain ⟨hRead, response, hBody, hSnapshot⟩ := hShows
    refine tagged_replaceCachedResponse hTagged.latestGeneration ⟨response, hBody, ?_⟩
    show response.snapshot.isSome = state.latest.isSome
    rw [hSnapshot, hRead, hTagged.latestGeneration, hGeneration]

/-- The outline of the served state. -/
def servedOutline (ι : Type) [DecidableEq ι] (publisher : CurrentStatePublisher) :
    Outline (servedSystem ι publisher) where
  inv := Tagged publisher
  assertion _ _ := CommitShows
  guarantee _ := Advances
  starts := fun _ hStarts => by cases hStarts <;> trivial
  step := fun {_ state op commit state' op'} hTagged hShows hStep => by
    obtain ⟨⟨task, hStep⟩, hNoWrap⟩ := hStep
    have hEffect := opStep_effect hStep
    refine ⟨tagged_effect hEffect hTagged hShows, advances_effect hEffect hNoWrap, ?_⟩
    cases commit with
    | none => exact commitShows_silent hTagged hShows hStep
    | some commit => rcases hEffect.commit_returns with rfl | rfl <;> trivial
  stable := fun _ _ _ _ hShows => hShows

-- ---------------------------------------------------------------------------
-- Served payloads
-- ---------------------------------------------------------------------------

variable {ι : Type} [DecidableEq ι]

/-- The worlds the publisher reaches while `response_revision` does not wrap. -/
abbrev Serves (publisher : CurrentStatePublisher) (trace : List (ι × Option Commit))
    (w : World ι CurrentState Op) : Prop :=
  (servedSystem ι publisher).Run (initial {}) trace w

/-- A state that is served is tagged. -/
theorem Serves.tagged {trace : List (ι × Option Commit)} {w : World ι CurrentState Op}
    (h : Serves publisher trace w) : Tagged publisher w.shared :=
  ((servedOutline ι publisher).holds_run h
    ((servedOutline ι publisher).holds_initial (tagged_default publisher))).1

/-- Along a run what is served advances. -/
theorem Serves.advances {trace rest : List (ι × Option Commit)} {w w' : World ι CurrentState Op}
    (h : Serves publisher trace w) (hRun : (servedSystem ι publisher).Run w rest w') :
    Advances w.shared w'.shared :=
  (servedOutline ι publisher).rel_run Advances.refl (fun hab hbc => hab.trans hbc) (fun hG => hG)
    hRun ((servedOutline ι publisher).holds_run h
      ((servedOutline ι publisher).holds_initial (tagged_default publisher)))

/-- A payload with a tag is the cached response, and the tag is that of the
latest snapshot at the current response revision. -/
theorem payload_tagged (hTagged : Tagged publisher state) {task : TaskOutcome}
    {payload : SnapshotResponsePayload} {tag : String}
    (h : snapshotResponsePayload publisher task state = .ok payload)
    (hTag : payload.etag = some tag) :
    state.cachedResponse = some ⟨payload.body, some tag⟩ ∧
      ∃ snapshot, tag = etagFor publisher snapshot state.responseRevision := by
  unfold snapshotResponsePayload at h
  cases hCached : state.cachedResponse with
  | none =>
    rw [hCached] at h
    dsimp only at h
    cases hEncoded : encodeResponse task (snapshotResponse publisher state) with
    | error error =>
      rw [hEncoded] at h
      cases h
    | ok body =>
      rw [hEncoded] at h
      obtain rfl := Except.ok.inj h
      cases hTag
  | some response =>
    rw [hCached] at h
    obtain rfl := Except.ok.inj h
    obtain ⟨body, etag⟩ := response
    obtain rfl : etag = some tag := hTag
    obtain ⟨-, hEtag⟩ := hTagged.cached _ hCached
    obtain ⟨snapshot, -, rfl⟩ := Option.map_eq_some_iff.mp hEtag.symm
    exact ⟨rfl, snapshot, rfl⟩

/-- The body of a payload encodes a response; without a snapshot it has no tag. -/
theorem payload_shows (hTagged : Tagged publisher state) {task : TaskOutcome}
    {payload : SnapshotResponsePayload}
    (h : snapshotResponsePayload publisher task state = .ok payload) :
    ∃ response, ResponseEncoder.toVec response = some payload.body ∧
      (response.snapshot = none → payload.etag = none) := by
  unfold snapshotResponsePayload at h
  cases hCached : state.cachedResponse with
  | none =>
    rw [hCached] at h
    dsimp only at h
    cases hEncoded : encodeResponse task (snapshotResponse publisher state) with
    | error error =>
      rw [hEncoded] at h
      cases h
    | ok body =>
      rw [hEncoded] at h
      obtain rfl := Except.ok.inj h
      exact ⟨_, encodeResponse_eq_ok hEncoded, fun _ => rfl⟩
  | some cached =>
    rw [hCached] at h
    obtain rfl := Except.ok.inj h
    obtain ⟨⟨response, hBody, hSnapshot⟩, hEtag⟩ := hTagged.cached _ hCached
    refine ⟨response, hBody, fun hNone => ?_⟩
    rw [hNone] at hSnapshot
    have hLatest : state.latest = none := by simpa using hSnapshot.symm
    rw [hEtag, hLatest]
    rfl

/-- What a client may hold at `w`: a payload served at some world of a run that
has led to `w`. -/
def Held (publisher : CurrentStatePublisher) (w : World ι CurrentState Op)
    (payload : SnapshotResponsePayload) : Prop :=
  ∃ trace w₀ rest task, Serves publisher trace w₀ ∧ (servedSystem ι publisher).Run w₀ rest w ∧
    snapshotResponsePayload publisher task w₀.shared = .ok payload

/-- Equal tags, equal bodies: the tag spells the response revision, and without
a commit in between the cached response has stayed. -/
theorem Held.body_eq {w : World ι CurrentState Op} {held current : SnapshotResponsePayload}
    {task : TaskOutcome} {tag : String} (h : Held publisher w held)
    (hCurrent : snapshotResponsePayload publisher task w.shared = .ok current)
    (hHeldTag : held.etag = some tag) (hTag : current.etag = some tag) :
    held.body = current.body := by
  obtain ⟨trace, w₀, rest, task₀, hServes, hRun, hPayload⟩ := h
  obtain ⟨hCached₀, snapshot₀, hSpells₀⟩ := payload_tagged hServes.tagged hPayload hHeldTag
  obtain ⟨hCached, snapshot, hSpells⟩ := payload_tagged (Serves.tagged (hServes.trans hRun)) hCurrent hTag
  have hRevision := etagFor_inj (hSpells.symm.trans hSpells₀)
  have hSame := (hServes.advances hRun).same hRevision
  rw [hCached, hCached₀] at hSame
  exact (CachedSnapshotResponse.mk.inj (Option.some.inj hSame)).1.symm

/-- The route answers `304` just when its payload has a tag that the header
matches. -/
theorem sourceSnapshot_not_modified {registry : Registry} {task : TaskOutcome}
    {sourceId : String} {headers : IfNoneMatch} {response : Response Bytes}
    (hSource : registry[sourceId]? = some (publisher, state))
    (h : sourceSnapshot registry task sourceId headers = .ok response) :
    ∃ payload, snapshotResponsePayload publisher task state = .ok payload ∧
      response.etag = payload.etag ∧
      (response.status = 304 ↔ ∃ tag, payload.etag = some tag ∧
        ifNoneMatchMatches headers tag = true) := by
  unfold sourceSnapshot at h
  rw [hSource] at h
  dsimp only at h
  split at h
  · cases h
  · next payload hPayload =>
    obtain rfl := Except.ok.inj h
    refine ⟨payload, hPayload, rfl, ?_⟩
    cases hTag : payload.etag with
    | none => simp
    | some tag => simp

/-- **Conditional reads are sound.** At every reachable world: a payload whose
tag a client holds has the body the client holds; a commit that leaves a
snapshot leaves a new tag; a response without a snapshot has no tag; `304` is
answered only to a candidate that is `*` or weakly equals the current tag, so to
a client whose candidates are all tags it holds, only while one of the bodies it
holds is the current one; and a tag sent back as received is the one candidate
of its header. -/
theorem conditional_reads_sound (hSourceId : validateSourceId publisher.sourceId = .ok ())
    {trace : List (ι × Option Commit)} {w : World ι CurrentState Op}
    (h : Serves publisher trace w) :
    (∀ held current task tag, Held publisher w held →
      snapshotResponsePayload publisher task w.shared = .ok current →
      held.etag = some tag → current.etag = some tag → held.body = current.body) ∧
    (∀ i commit w', (servedSystem ι publisher).Step w (i, some commit) w' →
      w'.shared.latest.isSome = true →
        ∃ response tag, w'.shared.cachedResponse = some response ∧ response.etag = some tag ∧
          ∀ previous, w.shared.cachedResponse = some previous → previous.etag ≠ some tag) ∧
    (∀ task payload, snapshotResponsePayload publisher task w.shared = .ok payload →
      ∃ response, ResponseEncoder.toVec response = some payload.body ∧
        (response.snapshot = none → payload.etag = none)) ∧
    (∀ (registry : Registry) task sourceId headers response,
      registry[sourceId]? = some (publisher, w.shared) →
      sourceSnapshot registry task sourceId headers = .ok response →
        ∃ current, snapshotResponsePayload publisher task w.shared = .ok current ∧
          (response.status = 304 → ∃ tag, current.etag = some tag ∧
            (∃ value ∈ headers, ∃ text, value = some text ∧ ∃ piece ∈ text.toList.splitOn ',',
              trim piece = ['*'] ∨ weakEtag (trim piece) = weakEtag tag.toList) ∧
            ((∀ candidate ∈ candidates headers, ∃ held heldTag, Held publisher w held ∧
                held.etag = some heldTag ∧ candidate = heldTag.toList) →
              ∃ held, Held publisher w held ∧ held.etag = some tag ∧
                tag.toList ∈ candidates headers ∧ held.body = current.body))) ∧
    ∀ held tag, Held publisher w held → held.etag = some tag →
      candidates [some tag] = [tag.toList] := by
  have hSpells : ∀ held tag, Held publisher w held → held.etag = some tag →
      ∃ snapshot revision, tag = etagFor publisher snapshot revision := by
    rintro held tag ⟨trace₀, w₀, rest, task₀, hServes, -, hPayload⟩ hTag
    obtain ⟨-, snapshot, rfl⟩ := payload_tagged hServes.tagged hPayload hTag
    exact ⟨snapshot, _, rfl⟩
  refine ⟨fun held current task tag hHeld hCurrent hHeldTag hTag =>
    hHeld.body_eq hCurrent hHeldTag hTag, ?_, fun task payload hPayload =>
    payload_shows h.tagged hPayload, ?_, ?_⟩
  · intro i commit w' hStep hLatest
    have hNext : Serves publisher _ w' := h.trans (Run.single hStep)
    have hTagged := hNext.tagged
    cases hStep with
    | @act _ op op' _ state' hLocal hAct =>
      obtain ⟨⟨task, hAct⟩, hNoWrap⟩ := hAct
      have hRevision := commit_revision (opStep_effect hAct) hNoWrap
      obtain ⟨snapshot, hSnapshot⟩ := Option.isSome_iff_exists.mp hLatest
      cases hCached : state'.cachedResponse with
      | none =>
        have hNone := hTagged.uncached hCached
        rw [hNone] at hLatest
        cases hLatest
      | some response =>
        obtain ⟨-, hEtag⟩ := hTagged.cached response hCached
        rw [hSnapshot] at hEtag
        refine ⟨response, _, rfl, hEtag, fun previous hPrevious hSame => ?_⟩
        obtain ⟨-, hBefore⟩ := h.tagged.cached previous hPrevious
        obtain ⟨before, -, hTag⟩ := Option.map_eq_some_iff.mp (hBefore.symm.trans hSame)
        have hEqual := etagFor_inj hTag
        have hLater : state'.responseRevision = w.shared.responseRevision := hEqual.symm
        omega
  · intro registry task sourceId headers response hSource hResponse
    obtain ⟨current, hCurrent, -, hStatus⟩ := sourceSnapshot_not_modified hSource hResponse
    refine ⟨current, hCurrent, fun hNotModified => ?_⟩
    obtain ⟨tag, hTag, hMatch⟩ := hStatus.mp hNotModified
    refine ⟨tag, hTag, ifNoneMatchMatches_iff.mp hMatch, fun hAll => ?_⟩
    unfold ifNoneMatchMatches at hMatch
    obtain ⟨candidate, hMem, hEither⟩ := List.any_eq_true.mp hMatch
    obtain ⟨held, heldTag, hHeld, hHeldTag, rfl⟩ := hAll candidate hMem
    obtain ⟨snapshot, revision, rfl⟩ := hSpells held heldTag hHeld hHeldTag
    obtain ⟨-, snapshot', rfl⟩ := payload_tagged h.tagged hCurrent hTag
    have hWeak : weakEtag (etagFor publisher snapshot revision).toList =
        weakEtag (etagFor publisher snapshot' w.shared.responseRevision).toList := by
      rcases Bool.or_eq_true .. |>.mp hEither with hStar | hWeak
      · -- a tag is no star
        rw [beq_iff_eq, etagFor_toList] at hStar
        cases (List.cons.inj hStar).2
      · exact beq_iff_eq.mp hWeak
    have hEqual := etagFor_weak_inj hWeak
    rw [hEqual] at hHeldTag hMem
    exact ⟨held, hHeld, hHeldTag, hMem, hHeld.body_eq hCurrent hHeldTag hTag⟩
  · intro held tag hHeld hTag
    obtain ⟨snapshot, revision, rfl⟩ := hSpells held tag hHeld hTag
    exact candidates_etagFor hSourceId snapshot revision

end Runs

/-- The classified payment is served again to a client that has it, by the tag it was given, and
once to a client that still has the unclassified one. -/
theorem conditional_reads_sound_payment :
    let _ := MempoolAtlas.Reference.crate [MempoolAtlas.Reference.payment]
    let _ := serdeEncoder
    let registry : Registry := (∅ : Registry).insert "core" (Payment.publisher, Payment.revised)
    let newest := Payment.body Payment.classified.latest .complete
    (∃ response, sourceSnapshot registry .finished "core" [some "W/\"core-0-2\""] = .ok response ∧
      response.status = 304 ∧ response.body = none ∧
      ∃ held, Held Payment.publisher Payment.revisedWorld held ∧
        held.etag = some "W/\"core-0-2\"" ∧ held.body = newest) ∧
    ∃ response, sourceSnapshot registry .finished "core" [some "W/\"core-0-1\""] = .ok response ∧
      response.status = 200 ∧ response.body = some newest := by
  intro _ _ registry newest
  have hPerforms : Payment.Performs (servedSystem Nat Payment.publisher) :=
    ⟨id, fun hStep _ hResponse => ⟨⟨.finished, hStep⟩, hResponse⟩⟩
  obtain ⟨trace, hRun⟩ := Payment.reaches_revising hPerforms
  have hServes : Serves Payment.publisher _ Payment.revisedWorld :=
    hRun.tail (Payment.revising_step hPerforms)
  have hSource : registry["core"]? = some (Payment.publisher, Payment.revised) :=
    Std.ExtTreeMap.getElem?_insert_self
  have hPayload : snapshotResponsePayload Payment.publisher .finished Payment.revised =
      .ok ⟨newest, some "W/\"core-0-2\""⟩ := by
    have hTag : etagFor Payment.publisher Payment.classified.latest 2 = "W/\"core-0-2\"" := by
      show "W/\"" ++ "core" ++ "-" ++ toString 0 ++ "-" ++ toString 2 ++ "\"" = _
      decide
    rw [← hTag]
    rfl
  have hAnswer : ∀ headers, sourceSnapshot registry .finished "core" headers = .ok {
      status := if ifNoneMatchMatches headers "W/\"core-0-2\"" then 304 else 200
      cacheControl := snapshotCacheControl
      etag := some "W/\"core-0-2\""
      body := if ifNoneMatchMatches headers "W/\"core-0-2\"" then none else some newest } := by
    intro headers
    unfold sourceSnapshot
    rw [hSource]
    dsimp only
    rw [hPayload]
    rfl
  obtain ⟨-, -, -, hConditional, hCandidates⟩ := conditional_reads_sound (by decide) hServes
  have hHeld : Held Payment.publisher Payment.revisedWorld ⟨newest, some "W/\"core-0-2\""⟩ :=
    ⟨_, _, _, _, hServes, Run.refl, hPayload⟩
  have hOwn : candidates [some "W/\"core-0-2\""] = ["W/\"core-0-2\"".toList] :=
    hCandidates _ _ hHeld rfl
  have hEcho : ifNoneMatchMatches [some "W/\"core-0-2\""] "W/\"core-0-2\"" = true := by
    decide +kernel
  have hOlder : ¬ ifNoneMatchMatches [some "W/\"core-0-1\""] "W/\"core-0-2\"" = true := by
    decide +kernel
  have hOwnAnswer := hAnswer [some "W/\"core-0-2\""]
  rw [if_pos hEcho, if_pos hEcho] at hOwnAnswer
  have hOlderAnswer := hAnswer [some "W/\"core-0-1\""]
  rw [if_neg hOlder, if_neg hOlder] at hOlderAnswer
  refine ⟨⟨_, hOwnAnswer, rfl, rfl, ?_⟩, _, hOlderAnswer, rfl, rfl⟩
  obtain ⟨current, hCurrent, hNotModified⟩ :=
    hConditional registry .finished "core" _ _ hSource hOwnAnswer
  obtain ⟨tag, hTag, -, hEchoed⟩ := hNotModified rfl
  obtain rfl := Except.ok.inj (hPayload.symm.trans hCurrent)
  obtain rfl := Option.some.inj hTag
  obtain ⟨held, hHeld', hHeldTag, -, hBody⟩ := hEchoed fun candidate hMem => by
    rw [hOwn] at hMem
    exact ⟨_, _, hHeld, rfl, List.mem_singleton.mp hMem⟩
  exact ⟨held, hHeld', hHeldTag, hBody⟩

end MempoolAtlas.Api
