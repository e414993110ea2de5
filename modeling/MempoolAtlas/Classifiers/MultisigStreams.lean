import MempoolAtlas.Bitcoin.Reference
import MempoolAtlas.Classifiers.DataFindings

/-!
# Bare-multisig streams

What the multisig carriers of a transaction prove, said of its streams: the chunks of its
outputs joined in output order and each chunk alone. The `counterparty` label is found
on every proven stream; the `stamps` label of an envelope only on the first.

## Results

* `decodes_iff`, `not_decodes_iff` — a stream is reported with what it decodes to.
* `multisig_detected_iff` — the labels are those of the proven streams just when no stamp marker
  comes only after the first of them.
-/

namespace MempoolAtlas.Classifiers

open BitcoinCrate Model

-- ---------------------------------------------------------------------------
-- Markers
-- ---------------------------------------------------------------------------

/-- A marker is found just when it occurs. -/
theorem markerOffset_isSome_iff (marker data : List UInt8) :
    (markerOffset marker data).isSome = true ↔ marker <:+: data := by
  induction data with
  | nil =>
    rw [markerOffset, List.infix_nil]
    cases marker <;> simp
  | cons byte data ih =>
    rw [markerOffset, List.infix_cons_iff, ← List.isPrefixOf_iff_prefix, ← ih]
    split
    · next hPrefix => simp [hPrefix]
    · next hPrefix => simp [hPrefix]

/-- A stamp marker stands somewhere in `data`. -/
def ContainsStamp (data : List UInt8) : Prop :=
  ∃ marker ∈ stampMarkers, asciiBytes marker <:+: data

instance (data : List UInt8) : Decidable (ContainsStamp data) :=
  inferInstanceAs (Decidable (∃ marker ∈ stampMarkers, asciiBytes marker <:+: data))

/-- A stamp marker is found just when one occurs. -/
theorem stampMarker_isSome_iff (data : List UInt8) :
    (stampMarker data).isSome = true ↔ ContainsStamp data := by
  rw [stampMarker, List.findSome?_isSome_iff]
  simp only [Option.isSome_map, markerOffset_isSome_iff, ContainsStamp]

theorem not_containsStamp_nil : ¬ ContainsStamp [] := by
  rintro ⟨marker, hMem, hInfix⟩
  have hNil : asciiBytes marker = [] := List.infix_nil.mp hInfix
  revert hNil
  revert marker
  decide

-- ---------------------------------------------------------------------------
-- Streams
-- ---------------------------------------------------------------------------

/-- `CNTRPRTY` stands at `offset`. -/
def CarriesAt (offset : Nat) (data : List UInt8) : Prop := cntrprtyPrefix <+: data.drop offset

instance (offset : Nat) (data : List UInt8) : Decidable (CarriesAt offset data) :=
  inferInstanceAs (Decidable (cntrprtyPrefix <+: data.drop offset))

/-- What a proven stream decodes to. -/
inductive Decodes (key stream : List UInt8) : List UInt8 → Prop
  | clear (hClear : CarriesAt 0 stream) : Decodes key stream stream
  | deobfuscated (hClear : ¬ CarriesAt 0 stream)
      (hCarries : CarriesAt 0 (Arc4.apply key stream) ∨ CarriesAt 1 (Arc4.apply key stream)) :
      Decodes key stream (Arc4.apply key stream)

/-- Without a length byte a message starts at once. -/
theorem cntrprtyOffset_isSome_false (data : List UInt8) :
    (cntrprtyOffset data false).isSome = true ↔ CarriesAt 0 data := by
  rw [CarriesAt, List.drop_zero, cntrprtyOffset, ← List.isPrefixOf_iff_prefix]
  split <;> simp_all

/-- With a length byte allowed a message starts at once or after one byte. -/
theorem cntrprtyOffset_isSome_true (data : List UInt8) :
    (cntrprtyOffset data true).isSome = true ↔ CarriesAt 0 data ∨ CarriesAt 1 data := by
  have hLength : CarriesAt 1 data → cntrprtyPrefix.length < data.length := by
    intro hCarries
    have hLe : cntrprtyPrefix.length ≤ (data.drop 1).length := List.IsPrefix.length_le hCarries
    have hPos : 0 < cntrprtyPrefix.length := by decide
    rw [List.length_drop] at hLe
    omega
  have hOne : CarriesAt 1 data ↔ (data.drop 1).take cntrprtyPrefix.length = cntrprtyPrefix := by
    rw [CarriesAt, List.prefix_iff_eq_take, eq_comm]
  have hZero : CarriesAt 0 data ↔ cntrprtyPrefix.isPrefixOf data = true := by
    rw [CarriesAt, List.drop_zero, List.isPrefixOf_iff_prefix]
  rw [hZero, cntrprtyOffset, Bool.true_and]
  split
  · next hPrefix => simp [hPrefix]
  · next hPrefix =>
    split
    · next hCond =>
      rw [Bool.and_eq_true, beq_iff_eq] at hCond
      simp [hOne.mpr hCond.2]
    · next hCond =>
      rw [Bool.and_eq_true, beq_iff_eq, ← hOne, decide_eq_true_eq] at hCond
      have hNot : ¬ CarriesAt 1 data := fun hCarries => hCond ⟨hLength hCarries, hCarries⟩
      simp [hPrefix, hNot]

/-- A stream is reported with what it decodes to. -/
theorem decodes_iff {key stream decoded : List UInt8} :
    Decodes key stream decoded ↔
      (counterpartyStream (some key) stream).map Prod.snd = some decoded := by
  have hShort : stream.length < cntrprtyPrefix.length →
      ¬ CarriesAt 0 stream ∧ ¬ CarriesAt 0 (Arc4.apply key stream) ∧
        ¬ CarriesAt 1 (Arc4.apply key stream) := by
    intro hLength
    refine ⟨fun h => ?_, fun h => ?_, fun h => ?_⟩ <;>
    · have hLe := List.IsPrefix.length_le h
      rw [List.length_drop] at hLe
      try rw [Arc4.length_apply] at hLe
      omega
  have hClear := cntrprtyOffset_isSome_false stream
  have hDeobfuscated := cntrprtyOffset_isSome_true (Arc4.apply key stream)
  unfold counterpartyStream
  constructor
  · intro h
    cases h with
    | clear hCarries =>
      rw [if_neg fun hLength => (hShort hLength).1 hCarries, if_pos (hClear.mpr hCarries)]
      rfl
    | deobfuscated hNot hCarries =>
      rw [if_neg fun hLength => hCarries.elim (hShort hLength).2.1 (hShort hLength).2.2,
        if_neg fun h => hNot (hClear.mp h)]
      simp only
      rw [if_neg, Option.map_some]
      rw [Option.isNone_iff_eq_none]
      intro hNone
      have hSome := hDeobfuscated.mpr hCarries
      rw [hNone] at hSome
      cases hSome
  · intro h
    split at h
    · cases h
    · split at h
      · next hSome =>
        obtain rfl := Option.some.inj h
        exact .clear (hClear.mp hSome)
      · next hNot =>
        simp only at h
        split at h
        · cases h
        · next hSome =>
          obtain rfl := Option.some.inj h
          refine .deobfuscated (fun hCarries => hNot (hClear.mpr hCarries)) (hDeobfuscated.mp ?_)
          rwa [Option.isNone_iff_eq_none, ← ne_eq, Option.ne_none_iff_isSome] at hSome

/-- A stream decodes just when the classifier reads it. -/
theorem not_decodes_iff {key stream : List UInt8} :
    (∀ decoded, ¬ Decodes key stream decoded) ↔ counterpartyStream (some key) stream = none := by
  constructor
  · intro hNone
    refine Option.eq_none_iff_forall_not_mem.mpr fun proven hProven => ?_
    have hSome : counterpartyStream (some key) stream = some proven := hProven
    exact hNone proven.2 (decodes_iff.mpr (by rw [hSome, Option.map_some]))
  · intro hNone decoded hDecodes
    rw [decodes_iff, hNone] at hDecodes
    cases hDecodes

section Crate

variable [BitcoinCrate]

/-- The chunks of the multisig outputs that have one, in output order. -/
def counterpartyChunks (transaction : Transaction) : List (List UInt8) :=
  (carrierChunks MultisigCarrier.counterpartyChunk (multisigCarriers transaction)).map Prod.snd

/-- The chunks of several outputs joined, then each chunk alone. -/
def counterpartyStreams (transaction : Transaction) : List (List UInt8) :=
  let chunks := counterpartyChunks transaction
  (if chunks.length > 1 then [chunks.flatten] else []) ++ chunks

/-- The chunks of the burn-key outputs, joined in output order. -/
def burnKeyStream (transaction : Transaction) : List UInt8 :=
  ((carrierChunks MultisigCarrier.stampsChunk (multisigCarriers transaction)).map
    Prod.snd).flatten

/-- The classifier's candidates are the streams. -/
theorem map_counterpartyCandidates (transaction : Transaction) :
    (counterpartyCandidates (carrierChunks MultisigCarrier.counterpartyChunk
      (multisigCarriers transaction))).map Prod.snd = counterpartyStreams transaction := by
  simp only [counterpartyCandidates, counterpartyStreams, counterpartyChunks, List.map_append,
    List.length_map, apply_ite (List.map Prod.snd), List.map_cons, List.map_nil, List.map_map]
  congr 1

/-- The reported stream is the first proven one. -/
theorem provenStream_eq_some {transaction : Transaction} {key decoded : List UInt8} :
    (provenStream (multisigCarriers transaction) (some key)).map (fun proven => proven.2.2) =
        some decoded ↔
      ∃ before stream after, counterpartyStreams transaction = before ++ stream :: after ∧
        (∀ earlier ∈ before, ∀ decoded, ¬ Decodes key earlier decoded) ∧
        Decodes key stream decoded := by
  have hStreams : (provenStream (multisigCarriers transaction) (some key)).map
      (fun proven => proven.2.2) =
      (counterpartyStreams transaction).findSome? fun stream =>
        (counterpartyStream (some key) stream).map Prod.snd := by
    rw [provenStream, ← map_counterpartyCandidates, List.findSome?_map, List.map_findSome?]
    congr 1
    funext candidate
    simp only [Function.comp_apply, Option.map_map]
    rfl
  rw [hStreams, List.findSome?_eq_some_iff]
  constructor
  · rintro ⟨before, stream, after, hSplit, hSome, hBefore⟩
    refine ⟨before, stream, after, hSplit, fun earlier hMem => ?_, decodes_iff.mpr hSome⟩
    exact not_decodes_iff.mpr (Option.map_eq_none_iff.mp (hBefore earlier hMem))
  · rintro ⟨before, stream, after, hSplit, hBefore, hDecodes⟩
    refine ⟨before, stream, after, hSplit, decodes_iff.mp hDecodes, fun earlier hMem => ?_⟩
    rw [not_decodes_iff.mp (hBefore earlier hMem), Option.map_none]

/-- No stream is proven just when none decodes. -/
theorem provenStream_eq_none {transaction : Transaction} {key : List UInt8} :
    provenStream (multisigCarriers transaction) (some key) = none ↔
      ∀ stream ∈ counterpartyStreams transaction, ∀ decoded, ¬ Decodes key stream decoded := by
  simp only [not_decodes_iff]
  rw [provenStream, List.findSome?_eq_none_iff, ← map_counterpartyCandidates]
  simp only [List.mem_map, forall_exists_index, and_imp, forall_apply_eq_imp_iff₂,
    Option.map_eq_none_iff]

-- ---------------------------------------------------------------------------
-- Labels
-- ---------------------------------------------------------------------------

/-- A label is given just when some finding has it. -/
theorem mem_analyzeMultisigCarriers {transaction : Transaction} {key : Option (List UInt8)}
    {label : String} :
    label ∈ (analyzeMultisigCarriers transaction key .empty).labels ↔
      (∃ finding ∈ stampsFindings (multisigCarriers transaction) key, finding.label = label) ∨
        ∃ finding ∈ counterpartyFindings (multisigCarriers transaction) key,
          finding.label = label := by
  rw [mem_labels_analyzeMultisigCarriers, multisigFindings]
  simp only [List.mem_append, or_and_right, exists_or]

/-- The burn-key path finds `stamps` and nothing else. -/
theorem mem_stampsFindings {transaction : Transaction} {key : List UInt8} {label : String} :
    (∃ finding ∈ stampsFindings (multisigCarriers transaction) (some key),
        finding.label = label) ↔
      label = "stamps" ∧ ContainsStamp (Arc4.apply key (burnKeyStream transaction)) := by
  rw [← stampMarker_isSome_iff]
  simp only [stampsFindings, Option.bind_some]
  split
  · next hEmpty =>
    have hBurn : Arc4.apply key (burnKeyStream transaction) = [] := by
      rw [burnKeyStream, List.isEmpty_iff.mp hEmpty]
      exact List.eq_nil_of_length_eq_zero (Arc4.length_apply key [])
    rw [hBurn, stampMarker_isSome_iff]
    simp [not_containsStamp_nil]
  · rw [show ((carrierChunks MultisigCarrier.stampsChunk (multisigCarriers transaction)).map
      Prod.snd).flatten = burnKeyStream transaction from rfl]
    cases stampMarker (Arc4.apply key (burnKeyStream transaction)) with
    | none => simp
    | some marker =>
      simp only [List.mem_singleton, exists_eq_left, carrierEvidence, Option.isSome_some, and_true]
      exact eq_comm

theorem mem_counterpartyFindings {transaction : Transaction} {key : List UInt8}
    {label : String} :
    (∃ finding ∈ counterpartyFindings (multisigCarriers transaction) (some key),
        finding.label = label) ↔
      ∃ decoded, (provenStream (multisigCarriers transaction) (some key)).map
          (fun proven => proven.2.2) = some decoded ∧
        (label = "counterparty" ∨ label = "stamps" ∧ ContainsStamp decoded) := by
  simp only [counterpartyFindings]
  cases provenStream (multisigCarriers transaction) (some key) with
  | none => simp
  | some proven =>
    obtain ⟨outputs, detection, decoded⟩ := proven
    simp only [Option.map_some, Option.some.injEq, exists_eq_left', ← stampMarker_isSome_iff,
      List.mem_cons, exists_eq_or_imp]
    refine or_congr eq_comm ?_
    cases stampMarker decoded with
    | none => simp
    | some marker =>
      simp only [List.mem_singleton, exists_eq_left, carrierEvidence, Option.isSome_some, and_true]
      exact eq_comm

-- ---------------------------------------------------------------------------
-- Detection
-- ---------------------------------------------------------------------------

/-- What the multisig carriers of a transaction are to be labelled. -/
structure MultisigDetected (transaction : Transaction) (key : List UInt8) : Prop where
  counterparty :
    "counterparty" ∈ (analyzeMultisigCarriers transaction (some key) .empty).labels ↔
      ∃ stream ∈ counterpartyStreams transaction, ∃ decoded, Decodes key stream decoded
  stamps :
    "stamps" ∈ (analyzeMultisigCarriers transaction (some key) .empty).labels ↔
      ContainsStamp (Arc4.apply key (burnKeyStream transaction)) ∨
        ∃ stream ∈ counterpartyStreams transaction, ∃ decoded,
          Decodes key stream decoded ∧ ContainsStamp decoded

/-- No stamp marker comes only after the first proven stream: where a later one decodes to
a marker, the first one or the burn-key outputs do too. -/
def NoLaterStamp (transaction : Transaction) (key : List UInt8) : Prop :=
  ContainsStamp (Arc4.apply key (burnKeyStream transaction)) ∨
    ∀ before stream after decoded, counterpartyStreams transaction = before ++ stream :: after →
      (∀ earlier ∈ before, ∀ decoded, ¬ Decodes key earlier decoded) →
      Decodes key stream decoded →
      (∃ later ∈ after, ∃ decoded, Decodes key later decoded ∧ ContainsStamp decoded) →
      ContainsStamp decoded

/-- **Counterparty is detected** just when some stream decodes. -/
theorem counterparty_detected (transaction : Transaction) (key : List UInt8) :
    "counterparty" ∈ (analyzeMultisigCarriers transaction (some key) .empty).labels ↔
      ∃ stream ∈ counterpartyStreams transaction, ∃ decoded, Decodes key stream decoded := by
  rw [mem_analyzeMultisigCarriers, mem_stampsFindings, mem_counterpartyFindings]
  constructor
  · rintro (⟨hLabel, -⟩ | ⟨decoded, hProven, -⟩)
    · exact absurd hLabel (by decide)
    · obtain ⟨before, stream, after, hSplit, -, hDecodes⟩ := provenStream_eq_some.mp hProven
      exact ⟨stream, hSplit ▸ List.mem_append_right _ List.mem_cons_self, decoded, hDecodes⟩
  · rintro ⟨stream, hMem, decoded, hDecodes⟩
    right
    cases hProven : provenStream (multisigCarriers transaction) (some key) with
    | none => exact absurd hDecodes (provenStream_eq_none.mp hProven stream hMem decoded)
    | some proven => exact ⟨proven.2.2, by rw [Option.map_some], Or.inl rfl⟩

/-- What the code finds: only the first proven stream is searched for a marker. -/
theorem stamps_detected (transaction : Transaction) (key : List UInt8) :
    "stamps" ∈ (analyzeMultisigCarriers transaction (some key) .empty).labels ↔
      ContainsStamp (Arc4.apply key (burnKeyStream transaction)) ∨
        ∃ before stream after decoded,
          counterpartyStreams transaction = before ++ stream :: after ∧
          (∀ earlier ∈ before, ∀ decoded, ¬ Decodes key earlier decoded) ∧
          Decodes key stream decoded ∧ ContainsStamp decoded := by
  rw [mem_analyzeMultisigCarriers, mem_stampsFindings, mem_counterpartyFindings]
  refine or_congr (and_iff_right rfl) ?_
  constructor
  · rintro ⟨decoded, hProven, hLabel | ⟨-, hStamp⟩⟩
    · exact absurd hLabel (by decide)
    · obtain ⟨before, stream, after, hSplit, hBefore, hDecodes⟩ :=
        provenStream_eq_some.mp hProven
      exact ⟨before, stream, after, decoded, hSplit, hBefore, hDecodes, hStamp⟩
  · rintro ⟨before, stream, after, decoded, hSplit, hBefore, hDecodes, hStamp⟩
    exact ⟨decoded, provenStream_eq_some.mpr ⟨before, stream, after, hSplit, hBefore, hDecodes⟩,
      Or.inr ⟨rfl, hStamp⟩⟩

omit [BitcoinCrate] in
/-- A stream decodes in one way. -/
theorem Decodes.unique {key stream decoded decoded' : List UInt8}
    (h : Decodes key stream decoded) (h' : Decodes key stream decoded') : decoded = decoded' :=
  Option.some.inj ((decodes_iff.mp h).symm.trans (decodes_iff.mp h'))

omit [BitcoinCrate] in
/-- Among streams of which one is proven there is a first one. -/
theorem exists_first_proven {key stream decoded : List UInt8} {streams : List (List UInt8)}
    (hMem : stream ∈ streams) (hDecodes : Decodes key stream decoded) :
    ∃ before first after firstDecoded, streams = before ++ first :: after ∧
      (∀ earlier ∈ before, ∀ decoded, ¬ Decodes key earlier decoded) ∧
      Decodes key first firstDecoded ∧
      (stream = first ∨ stream ∈ after) := by
  induction streams with
  | nil => cases hMem
  | cons first rest ih =>
    by_cases hFirst : ∃ firstDecoded, Decodes key first firstDecoded
    · obtain ⟨firstDecoded, hFirst⟩ := hFirst
      exact ⟨[], first, rest, firstDecoded, rfl, by simp, hFirst, List.mem_cons.mp hMem⟩
    · have hRest : stream ∈ rest := by
        rcases List.mem_cons.mp hMem with rfl | hRest
        · exact absurd ⟨decoded, hDecodes⟩ hFirst
        · exact hRest
      obtain ⟨before, found, after, foundDecoded, rfl, hBefore, hFound⟩ := ih hRest
      refine ⟨first :: before, found, after, foundDecoded, rfl, ?_, hFound⟩
      intro earlier hEarlier
      rcases List.mem_cons.mp hEarlier with rfl | hEarlier
      · exact not_exists.mp hFirst
      · exact hBefore earlier hEarlier

omit [BitcoinCrate] in
theorem arc4Key_eq_some {transaction : Transaction} (hInput : transaction.input ≠ []) :
    ∃ key, arc4Key transaction = some key := by
  obtain ⟨first, rest, hEq⟩ := List.exists_cons_of_ne_nil hInput
  exact ⟨_, by rw [arc4Key, hEq, List.head?_cons, Option.map_some]⟩

/-- The labels are those of the proven streams exactly where no stamp marker comes only after
the first of them. -/
theorem multisig_detected_iff (transaction : Transaction) (hInput : transaction.input ≠ []) :
    ∃ key, arc4Key transaction = some key ∧
      (MultisigDetected transaction key ↔ NoLaterStamp transaction key) := by
  obtain ⟨key, hKey⟩ := arc4Key_eq_some hInput
  refine ⟨key, hKey, fun hDetected => ?_, fun hNoLater => ⟨counterparty_detected _ _, ?_⟩⟩
  · rw [NoLaterStamp, or_iff_not_imp_left]
    rintro hBurn before stream after decoded hSplit hBefore hDecodes
      ⟨later, hLater, laterDecoded, hLaterDecodes, hStamp⟩
    have hMem : later ∈ counterpartyStreams transaction :=
      hSplit ▸ List.mem_append_right _ (List.mem_cons_of_mem _ hLater)
    have hLabel := hDetected.stamps.mpr (Or.inr ⟨later, hMem, laterDecoded, hLaterDecodes, hStamp⟩)
    rcases (stamps_detected transaction key).mp hLabel with hFound |
      ⟨before', stream', after', decoded', hSplit', hBefore', hDecodes', hStamp'⟩
    · exact absurd hFound hBurn
    · have hFirst := provenStream_eq_some.mpr ⟨before, stream, after, hSplit, hBefore, hDecodes⟩
      have hFirst' := provenStream_eq_some.mpr
        ⟨before', stream', after', hSplit', hBefore', hDecodes'⟩
      rwa [Option.some.inj (hFirst.symm.trans hFirst')]
  · rw [stamps_detected]
    constructor
    · rintro (hBurn | ⟨before, stream, after, decoded, hSplit, -, hDecodes, hStamp⟩)
      · exact Or.inl hBurn
      · exact Or.inr ⟨stream, hSplit ▸ List.mem_append_right _ List.mem_cons_self, decoded,
          hDecodes, hStamp⟩
    · rintro (hBurn | ⟨stream, hMem, decoded, hDecodes, hStamp⟩)
      · exact Or.inl hBurn
      · rcases hNoLater with hBurn | hNoLater
        · exact Or.inl hBurn
        · obtain ⟨before, first, after, firstDecoded, hSplit, hBefore, hFirst, hWhere⟩ :=
            exists_first_proven hMem hDecodes
          refine Or.inr ⟨before, first, after, firstDecoded, hSplit, hBefore, hFirst, ?_⟩
          rcases hWhere with rfl | hAfter
          · rwa [hFirst.unique hDecodes]
          · exact hNoLater before first after firstDecoded hSplit hBefore hFirst
              ⟨stream, hAfter, decoded, hDecodes, hStamp⟩

end Crate

-- ---------------------------------------------------------------------------
-- A stamp after the first stream
-- ---------------------------------------------------------------------------

/-- A two-slot carrier whose second slot holds a length byte and its chunk. -/
def twoSlotOutput (chunk : List UInt8) : TxOut where
  value := 1000
  scriptPubkey := [0x51, 0x01, 0x02, UInt8.ofNat (chunk.length + 1), UInt8.ofNat chunk.length] ++
    chunk ++ [0x52, 0xae]

/-- The obfuscated chunk of the first carrier. -/
def firstChunk : List UInt8 := [0x3b, 0x75, 0xfd, 0xce, 0x2f, 0x3a, 0x0a, 0x24]

/-- The obfuscated chunk of the second carrier. -/
def secondChunk : List UInt8 := firstChunk ++ [0x11, 0x8c, 0x7f, 0x7a, 0x6a, 0xdc]

/-- Two carriers obfuscated each on its own: `CNTRPRTY`, then `CNTRPRTYstamp:`. -/
def laterStamp : Transaction where
  version := 2
  lockTime := 0
  input := [⟨⟨1, 0⟩, [], 0xffffffff, []⟩]
  output := [twoSlotOutput firstChunk, twoSlotOutput secondChunk]

/-- The key of the transaction's first input. -/
def laterStampKey : List UInt8 := 1 :: List.replicate 31 0

/-- The streams of the two carriers. -/
theorem streams_laterStamp : @counterpartyStreams (Reference.crate []) laterStamp =
    [firstChunk ++ secondChunk, firstChunk, secondChunk] := by
  decide

/-- None of them is addressed to a burn key. -/
theorem burnKeyStream_laterStamp : @burnKeyStream (Reference.crate []) laterStamp = [] := by
  decide

theorem arc4Key_laterStamp : arc4Key laterStamp = some laterStampKey := by
  decide

/-- What the joined stream decodes to: `CNTRPRTY` and noise. -/
def joinedDecoded : List UInt8 :=
  cntrprtyPrefix ++ [0x59, 0x8d, 0xe3, 0xd9, 0x35, 0xdc, 0xb0, 0x09, 0xa0, 0x73, 0xcc, 0x17, 0x6e,
    0xd9]

theorem apply_joined : Arc4.apply laterStampKey (firstChunk ++ secondChunk) = joinedDecoded := by
  rw [Arc4.apply_eq_packed (by decide)]
  decide +kernel

/-- The second carrier decodes to a stamp. -/
theorem apply_secondChunk :
    Arc4.apply laterStampKey secondChunk = cntrprtyPrefix ++ asciiBytes "stamp:" := by
  rw [Arc4.apply_eq_packed (by decide)]
  decide +kernel

theorem decodes_joined : Decodes laterStampKey (firstChunk ++ secondChunk) joinedDecoded := by
  rw [← apply_joined]
  refine .deobfuscated (by decide) (Or.inl ?_)
  rw [apply_joined]
  exact List.prefix_append _ _

theorem decodes_secondChunk :
    Decodes laterStampKey secondChunk (cntrprtyPrefix ++ asciiBytes "stamp:") := by
  rw [← apply_secondChunk]
  refine .deobfuscated (by decide) (Or.inl ?_)
  rw [apply_secondChunk]
  exact List.prefix_append _ _

/-- The second carrier alone: one proven stream, with a stamp marker. -/
def stampCarrier : Transaction := { laterStamp with output := [twoSlotOutput secondChunk] }

theorem streams_stampCarrier :
    @counterpartyStreams (Reference.crate []) stampCarrier = [secondChunk] := by
  decide

/-- At the lone carrier nothing comes later and both labels are found; with the other carrier
before it, neither side holds. -/
theorem multisig_detected_iff_laterStamp :
    (∃ key, arc4Key stampCarrier = some key ∧
      @MultisigDetected (Reference.crate []) stampCarrier key ∧
      "counterparty" ∈
        (@analyzeMultisigCarriers (Reference.crate []) stampCarrier (some key) .empty).labels ∧
      "stamps" ∈
        (@analyzeMultisigCarriers (Reference.crate []) stampCarrier (some key) .empty).labels) ∧
    ∃ key, arc4Key laterStamp = some key ∧
      (@MultisigDetected (Reference.crate []) laterStamp key ↔
        @NoLaterStamp (Reference.crate []) laterStamp key) ∧
      ¬ @NoLaterStamp (Reference.crate []) laterStamp key := by
  let _ : BitcoinCrate := Reference.crate []
  constructor
  · obtain ⟨key, hKey, hIff⟩ := multisig_detected_iff stampCarrier (by decide)
    obtain rfl : laterStampKey = key := Option.some.inj (arc4Key_laterStamp.symm.trans hKey)
    have hDetected : MultisigDetected stampCarrier laterStampKey := by
      refine hIff.mpr (Or.inr ?_)
      intro before stream after decoded hSplit _ _ hLater
      -- the only stream is the first one
      obtain ⟨later, hMem, -⟩ := hLater
      have hLength := congrArg List.length hSplit
      have hPositive := List.length_pos_of_mem hMem
      simp only [streams_stampCarrier, List.length_append, List.length_cons, List.length_nil]
        at hLength
      omega
    have hStream : secondChunk ∈ counterpartyStreams stampCarrier := by
      rw [streams_stampCarrier]
      exact List.mem_singleton_self _
    exact ⟨laterStampKey, hKey, hDetected,
      hDetected.counterparty.mpr ⟨_, hStream, _, decodes_secondChunk⟩,
      hDetected.stamps.mpr (Or.inr ⟨_, hStream, _, decodes_secondChunk, by decide⟩)⟩
  · obtain ⟨key, hKey, hIff⟩ := multisig_detected_iff laterStamp (by decide)
    obtain rfl : laterStampKey = key := Option.some.inj (arc4Key_laterStamp.symm.trans hKey)
    refine ⟨laterStampKey, hKey, hIff, ?_⟩
    intro hNoLater
    rcases hNoLater with hBurn | hNoLater
    · rw [burnKeyStream_laterStamp] at hBurn
      exact not_containsStamp_nil hBurn
    · have hStamp := hNoLater [] _ _ _ streams_laterStamp (List.forall_mem_nil _) decodes_joined
        ⟨secondChunk, by simp, _, decodes_secondChunk, by decide⟩
      revert hStamp
      decide

/-- The second carrier is proven and shows a stamp, and `stamps` is not found. -/
theorem multisig_detected_later_stamp : arc4Key laterStamp = some laterStampKey ∧
    ¬ @MultisigDetected (Reference.crate []) laterStamp laterStampKey := by
  let _ : BitcoinCrate := Reference.crate []
  refine ⟨arc4Key_laterStamp, fun hDetected => ?_⟩
  have hLabel := hDetected.stamps.mpr
    (Or.inr ⟨secondChunk, by simp [streams_laterStamp], _, decodes_secondChunk, by decide⟩)
  rcases (stamps_detected _ _).mp hLabel with hBurn |
    ⟨before, stream, after, decoded, hSplit, hBefore, hDecodes, hStamp⟩
  · rw [burnKeyStream_laterStamp] at hBurn
    exact not_containsStamp_nil hBurn
  · have hFirst := provenStream_eq_some.mpr ⟨before, stream, after, hSplit, hBefore, hDecodes⟩
    have hFirst' := provenStream_eq_some.mpr
      ⟨[], _, _, streams_laterStamp, List.forall_mem_nil _, decodes_joined⟩
    rw [Option.some.inj (hFirst.symm.trans hFirst')] at hStamp
    revert hStamp
    decide

end MempoolAtlas.Classifiers
