import Mathlib
import MempoolAtlas.Web.Parser
import MempoolAtlas.Model.Materialization

/-!
# Reading back what is written

What each parser of the browser returns on the JSON the server writes for a value:
the value itself, exactly when the value passes the checks the parser makes.

## Results

* `parseClassifierCatalog_json` — the catalog is read back.
* `parseBip110Assessment_json`, `parseClassificationResults_json`, `parseTransaction_json` — when
  each is read back, and as what.
-/

namespace MempoolAtlas.Web

open Checks Model Json

-- ---------------------------------------------------------------------------
-- Objects, numbers, texts
-- ---------------------------------------------------------------------------

/-- An object with the expected keys is a record. -/
theorem ensureRecord_obj {fields : List (String × Json)} {expectedKeys : List String}
    {message : String} (h : fields.map Prod.fst = expectedKeys) :
    ensureRecord (some (.obj fields)) expectedKeys message = .ok () := by
  have hAll : expectedKeys.all expectedKeys.contains = true := by
    rw [List.all_eq_true]
    intro key hKey
    exact List.contains_iff_mem.mpr hKey
  simp [ensureRecord, ensure, isRecord, hasOnlyKeys, keys, h, hAll]

theorem filter_string?_str {p : String → Bool} {s t : String} :
    (string? (some (.str s))).filter p = some t ↔ p s = true ∧ t = s := by
  rw [string?_str, Option.filter_eq_some_iff, Option.some.injEq]
  constructor
  · rintro ⟨rfl, h⟩
    exact ⟨h, rfl⟩
  · rintro ⟨h, rfl⟩
    exact ⟨rfl, h⟩

theorem hash?_str {s t : String} : hash? (some (.str s)) = some t ↔ isHash s = true ∧ t = s :=
  filter_string?_str

theorem classifierKey?_str {s t : String} :
    classifierKey? (some (.str s)) = some t ↔ isClassifierKey s = true ∧ t = s :=
  filter_string?_str

theorem nonBlankString?_str {s t : String} :
    nonBlankString? (some (.str s)) = some t ↔ isBlank s = false ∧ t = s := by
  unfold nonBlankString?
  rw [filter_string?_str, Bool.not_eq_true']

theorem nonNegativeInteger?_number {n m : Nat} :
    nonNegativeInteger? (some (number n)) = some m ↔ n ≤ maxSafeInteger ∧ m = n :=
  nonNegativeInteger?_num

/-- A name is read as the first constant that has it. -/
theorem constant?_name {α : Type} {name : α → String} {all : List α} {a b : α}
    (hMem : a ∈ all) (hInjective : ∀ x ∈ all, name x = name a → x = a) :
    constant? name all (some (.str (name a))) = some b ↔ b = a := by
  have hFound : all.find? (fun x => name x == name a) = some a := by
    induction all with
    | nil => cases hMem
    | cons x rest ih =>
      by_cases hEq : name x = name a
      · obtain rfl := hInjective x List.mem_cons_self hEq
        rw [List.find?_cons_of_pos (by simp)]
      · rw [List.find?_cons_of_neg (by simpa using hEq)]
        have hRest : a ∈ rest := by
          rcases List.mem_cons.mp hMem with rfl | hRest
          · exact absurd rfl hEq
          · exact hRest
        exact ih hRest fun y hy => hInjective y (List.mem_cons_of_mem x hy)
  simp only [constant?, string?_str, Option.bind_some, hFound, Option.some.injEq, eq_comm]

-- ---------------------------------------------------------------------------
-- Source summaries
-- ---------------------------------------------------------------------------

/-- When a tip is read back, and as what. -/
theorem parseChainTip_json {tip parsed : ChainTip} :
    parseChainTip (some (chainTipJson tip)) = .ok parsed ↔
      (tip.height ≤ maxSafeInteger ∧ isHash tip.hash = true) ∧ parsed = tip := by
  have hRecord : ensureRecord (some (chainTipJson tip)) ["height", "hash"] "Invalid chain tip" =
      .ok () := ensureRecord_obj rfl
  have hHeight : get "height" (some (chainTipJson tip)) = some (number tip.height) := rfl
  have hHash : get "hash" (some (chainTipJson tip)) = some (.str tip.hash) := rfl
  simp only [parseChainTip, hRecord, hHeight, hHash, bind_eq_ok, require_eq_ok,
    nonNegativeInteger?_number, hash?_str, pure, Except.pure, Except.ok.injEq, exists_const,
    true_and, and_assoc, exists_and_left, exists_eq_left]
  rw [eq_comm (a := parsed)]

/-- What is read from an optional value: nothing from `null`, and the value itself otherwise. -/
theorem nullable_json {α : Type} (read : Option Json → Parsed α) (toJson : α → Json)
    {good : α → Prop} (hNotNull : ∀ a, isNull (some (toJson a)) = false)
    (hRead : ∀ a b, read (some (toJson a)) = .ok b ↔ good a ∧ b = a) {value parsed : Option α} :
    (if isNull (some (optional toJson value)) then Except.ok none
      else (read (some (optional toJson value))).map some) = .ok parsed ↔
      (∀ a ∈ value, good a) ∧ parsed = value := by
  cases value with
  | none => simp [optional, eq_comm]
  | some a =>
    simp only [optional, hNotNull, Bool.false_eq_true, if_false, map_eq_ok, hRead, and_assoc,
      exists_and_left, exists_eq_left, Option.mem_def, Option.some.injEq, forall_eq']
    rw [eq_comm (a := parsed)]

theorem parseNullableInteger_json {value parsed : Option Nat} {field : String} :
    parseNullableInteger (some (optional number value)) field = .ok parsed ↔
      (∀ n ∈ value, n ≤ maxSafeInteger) ∧ parsed = value := by
  refine nullable_json (fun value => require (nonNegativeInteger? value) ("Invalid " ++ field))
    number (fun _ => rfl) fun n m => ?_
  rw [require_eq_ok, nonNegativeInteger?_number]

theorem parseNullableChainTip_json {value parsed : Option ChainTip} :
    parseNullableChainTip (some (optional chainTipJson value)) = .ok parsed ↔
      (∀ tip ∈ value, tip.height ≤ maxSafeInteger ∧ isHash tip.hash = true) ∧ parsed = value :=
  nullable_json parseChainTip chainTipJson (fun _ => rfl) fun _ _ => parseChainTip_json

/-- Every state is read back. -/
theorem parseAvailability_json {availability parsed : SourceAvailability} :
    parseAvailability (some (.str (availabilityName availability))) = .ok parsed ↔
      parsed = availability := by
  unfold parseAvailability
  rw [require_eq_ok]
  refine constant?_name (by cases availability <;> simp) fun other _ h => ?_
  cases availability <;> cases other <;> simp_all [availabilityName]

/-- When progress is read back, and as what. -/
theorem parseClassificationProgress_json {value parsed : Option ClassificationProgress} :
    parseClassificationProgress (some (optional progressJson value)) = .ok parsed ↔
      (∀ progress ∈ value, progress.revision ≤ maxSafeInteger ∧
        progress.classifiedCount ≤ maxSafeInteger ∧
        progress.unclassifiedCount ≤ maxSafeInteger) ∧ parsed = value := by
  cases value with
  | none => simp [parseClassificationProgress, optional, eq_comm]
  | some progress =>
    have hRecord : ∀ message, ensureRecord (some (progressJson progress))
        ["state", "revision", "classified_count", "unclassified_count"] message = .ok () :=
      fun message => ensureRecord_obj rfl
    have hState : ∀ b, constant? classificationStateName [.classifying, .complete, .paused]
        (get "state" (some (progressJson progress))) = some b ↔ b = progress.state := by
      intro b
      refine constant?_name (by cases progress.state <;> simp) fun other _ h => ?_
      revert h
      cases progress.state <;> cases other <;> simp [classificationStateName]
    have hRevision : get "revision" (some (progressJson progress)) =
        some (number progress.revision) := rfl
    have hClassified : get "classified_count" (some (progressJson progress)) =
        some (number progress.classifiedCount) := rfl
    have hUnclassified : get "unclassified_count" (some (progressJson progress)) =
        some (number progress.unclassifiedCount) := rfl
    have hNull : isNull (some (progressJson progress)) = false := rfl
    simp only [parseClassificationProgress, optional, hNull, hRecord, hState, hRevision,
      hClassified, hUnclassified, bind_eq_ok, require_eq_ok, nonNegativeInteger?_number, pure,
      Except.pure, Except.ok.injEq, exists_const, true_and, and_assoc, exists_and_left,
      exists_eq_left, Bool.false_eq_true, if_false, Option.mem_def, Option.some.injEq, forall_eq']
    rw [eq_comm (a := parsed)]

/-- `null` or a text is read as it is. -/
theorem nullableString?_json {value parsed : Option String} :
    nullableString? (some (optional Json.str value)) = some parsed ↔ parsed = value := by
  cases value <;> simp [nullableString?, optional, eq_comm]

/-- What `parseSourceSummary` checks of a summary. -/
structure SummaryReadable (summary : SourceSummary) : Prop where
  sourceId : isSourceId summary.sourceId = true
  sourceLabel : isBlank summary.sourceLabel = false
  pollInterval : summary.pollIntervalSeconds ≤ maxSafeInteger
  pollIntervalPositive : (summary.pollIntervalSeconds == 0) = false
  lastPoll : ∀ ms ∈ summary.lastPollStartedAtMs, ms ≤ maxSafeInteger
  observed : ∀ ms ∈ summary.snapshotObservedAtMs, ms ≤ maxSafeInteger
  count : ∀ n ∈ summary.transactionCount, n ≤ maxSafeInteger
  vsize : ∀ n ∈ summary.totalVsize, n ≤ maxSafeInteger
  chainTip : ∀ tip ∈ summary.chainTip, tip.height ≤ maxSafeInteger ∧ isHash tip.hash = true
  progress : ∀ progress ∈ summary.classification, progress.revision ≤ maxSafeInteger ∧
    progress.classifiedCount ≤ maxSafeInteger ∧ progress.unclassifiedCount ≤ maxSafeInteger
  consistent : checkSummary summary = .ok ()

/-- When a source is read back, and as what. -/
theorem parseSourceSummary_json {summary parsed : SourceSummary} :
    parseSourceSummary (some (summaryJson summary)) = .ok parsed ↔
      SummaryReadable summary ∧ parsed = summary := by
  have hRecord : ∀ message, ensureRecord (some (summaryJson summary)) ["source_id",
      "source_label", "availability", "poll_interval_seconds", "last_poll_started_at_ms",
      "snapshot_observed_at_ms", "chain_tip", "transaction_count", "total_vsize",
      "classification", "last_error"] message = .ok () := fun message => ensureRecord_obj rfl
  simp only [parseSourceSummary, hRecord, bind_eq_ok, exists_const, true_and]
  simp only [summaryJson, Json.get, List.lookup, String.reduceBEq, beq_self_eq_true,
    require_eq_ok, ensure_eq_ok, exists_const, filter_string?_str, nonBlankString?_str,
    nonNegativeInteger?_number, nullableString?_json, parseAvailability_json,
    parseNullableInteger_json, parseNullableChainTip_json, parseClassificationProgress_json,
    and_assoc, exists_and_left, exists_eq_left, pure, Except.pure, Except.ok.injEq]
  constructor
  · rintro ⟨hId, hLabel, hInterval, hPositive, hPolled, hObserved, hCount, hVsize, hTip, hProgress,
      _, hConsistent, rfl⟩
    exact ⟨⟨hId, hLabel, hInterval, hPositive, hPolled, hObserved, hCount, hVsize, hTip, hProgress,
      hConsistent⟩, rfl⟩
  · rintro ⟨h, rfl⟩
    exact ⟨h.sourceId, h.sourceLabel, h.pollInterval, h.pollIntervalPositive, h.lastPoll,
      h.observed, h.count, h.vsize, h.chainTip, h.progress, _, h.consistent, rfl⟩

-- ---------------------------------------------------------------------------
-- The classifier catalog
-- ---------------------------------------------------------------------------

theorem isBlank_ofList {c : Char} {cs : List Char} (h : isJsWhitespace c = false) :
    isBlank (String.ofList (c :: cs)) = false := by
  simp [isBlank, h]

/-- A list of distinct keys is read as it is. -/
theorem parseStringKeys_json {values parsed : List String} {field : String} :
    parseStringKeys (some (strings values)) field = .ok parsed ↔
      ((∀ value ∈ values, isClassifierKey value = true) ∧ values.Nodup) ∧ parsed = values := by
  have hItems : ∀ found, (values.map Json.str).mapM (fun item => classifierKey? (some item)) =
      some found ↔ (∀ value ∈ values, isClassifierKey value = true) ∧ found = values := by
    intro found
    have hKeys := @mapM_eq_some_iff _ _ (fun s => classifierKey? (some (.str s))) _ id values
      (fun s _ t => classifierKey?_str) found
    rw [List.map_id] at hKeys
    rw [List.mapM_map]
    exact hKeys
  simp only [parseStringKeys, strings, array?_arr, bind_eq_ok, require_eq_ok, Option.some.injEq,
    exists_eq_left', hItems, ensure_eq_ok, Bool.not_eq_false', decide_eq_true_eq, exists_const,
    and_assoc, exists_and_left, exists_eq_left, pure, Except.pure, Except.ok.injEq]
  rw [eq_comm (a := parsed)]

/-- What the browser asks of the labels of a lens. -/
structure LabelReadable (descriptor : ClassifierLabelDescriptor) : Prop where
  key : isClassifierKey descriptor.key = true
  label : isBlank descriptor.label = false
  description : isBlank descriptor.description = false

/-- Readable, distinct labels are read back. -/
theorem parseLabels_json {labels : List ClassifierLabelDescriptor} {message : String}
    {seen : List String} (hReadable : ∀ label ∈ labels, LabelReadable label)
    (hDistinct : (labels.map (·.key)).Nodup) (hNew : ∀ label ∈ labels, label.key ∉ seen) :
    parseLabels message (labels.map labelDescriptorJson) seen = .ok labels := by
  induction labels generalizing seen with
  | nil => rfl
  | cons label rest ih =>
    obtain ⟨hLabel, hRest⟩ := List.forall_mem_cons.mp hReadable
    obtain ⟨hKey, hKeys⟩ := List.nodup_cons.mp hDistinct
    have hTail : parseLabels message (rest.map labelDescriptorJson) (seen ++ [label.key]) =
        .ok rest := by
      refine ih hRest hKeys fun other hOther => ?_
      rw [List.mem_append, List.mem_singleton]
      rintro (hSeen | hSame)
      · exact hNew other (List.mem_cons_of_mem label hOther) hSeen
      · exact hKey (List.mem_map.mpr ⟨other, hOther, hSame⟩)
    have hRecord : ensureRecord (some (labelDescriptorJson label))
        ["key", "label", "description"] message = .ok () := ensureRecord_obj rfl
    have hUnseen : seen.contains label.key = false := by
      simpa using hNew label List.mem_cons_self
    simp only [List.map_cons, parseLabels, hRecord, bind_eq_ok, exists_const, true_and]
    simp only [labelDescriptorJson, Json.get, List.lookup, String.reduceBEq, beq_self_eq_true,
      require_eq_ok, ensure_eq_ok, classifierKey?_str, nonBlankString?_str, hLabel.key,
      hLabel.label, hLabel.description, true_and, exists_eq_left, hUnseen, exists_const,
      hTail, Except.ok.injEq, exists_eq_left', pure, Except.pure]

/-- What the browser asks of a lens. -/
structure DescriptorReadable (descriptor : ClassifierDescriptor) : Prop where
  id : isClassifierKey descriptor.id = true
  version : isBlank descriptor.version = false
  title : isBlank descriptor.title = false
  requiredFacts : ∀ fact ∈ descriptor.requiredFacts, isClassifierKey fact = true
  factsDistinct : descriptor.requiredFacts.Nodup
  labelled : descriptor.labels ≠ []
  labels : ∀ label ∈ descriptor.labels, LabelReadable label
  labelsDistinct : (descriptor.labels.map (·.key)).Nodup

/-- Readable, distinct lenses are read back. -/
theorem parseDescriptors_json {catalog : List ClassifierDescriptor} {seen : List String}
    (hReadable : ∀ descriptor ∈ catalog, DescriptorReadable descriptor)
    (hDistinct : (catalog.map (·.id)).Nodup)
    (hNew : ∀ descriptor ∈ catalog, descriptor.id ∉ seen) :
    parseDescriptors (catalog.map descriptorJson) seen = .ok catalog := by
  induction catalog generalizing seen with
  | nil => rfl
  | cons descriptor rest ih =>
    obtain ⟨hFirst, hRest⟩ := List.forall_mem_cons.mp hReadable
    obtain ⟨hId, hIds⟩ := List.nodup_cons.mp hDistinct
    have hTail : parseDescriptors (rest.map descriptorJson) (seen ++ [descriptor.id]) =
        .ok rest := by
      refine ih hRest hIds fun other hOther => ?_
      rw [List.mem_append, List.mem_singleton]
      rintro (hSeen | hSame)
      · exact hNew other (List.mem_cons_of_mem descriptor hOther) hSeen
      · exact hId (List.mem_map.mpr ⟨other, hOther, hSame⟩)
    have hRecord : ∀ message, ensureRecord (some (descriptorJson descriptor)) ["id", "version",
        "title", "methodology", "semantics", "required_facts", "labels"] message = .ok () :=
      fun message => ensureRecord_obj rfl
    have hUnseen : seen.contains descriptor.id = false := by
      simpa using hNew descriptor List.mem_cons_self
    have hLabelled : (descriptor.labels.map labelDescriptorJson).isEmpty = false := by
      simpa using hFirst.labelled
    have hMethodology : constant? methodologyName [.exact, .heuristic, .fingerprint, .policy]
        (some (.str (methodologyName descriptor.methodology))) = some descriptor.methodology := by
      cases descriptor.methodology <;> rfl
    have hSemantics : constant? semanticsName [.multiLabel, .ruleSet]
        (some (.str (semanticsName descriptor.semantics))) = some descriptor.semantics := by
      cases descriptor.semantics <;> rfl
    have hFacts : ∀ field, parseStringKeys (some (strings descriptor.requiredFacts)) field =
        .ok descriptor.requiredFacts := fun field =>
      parseStringKeys_json.mpr ⟨⟨hFirst.requiredFacts, hFirst.factsDistinct⟩, rfl⟩
    have hLabels : ∀ message, parseLabels message (descriptor.labels.map labelDescriptorJson) [] =
        .ok descriptor.labels := fun message =>
      parseLabels_json hFirst.labels hFirst.labelsDistinct fun _ _ => List.not_mem_nil
    simp only [List.map_cons, parseDescriptors, hRecord, bind_eq_ok, exists_const, true_and]
    simp only [descriptorJson, Json.get, List.lookup, String.reduceBEq, beq_self_eq_true,
      require_eq_ok, ensure_eq_ok, classifierKey?_str, nonBlankString?_str, array?_arr,
      hFirst.id, hFirst.version, hFirst.title, true_and, exists_eq_left, hUnseen, exists_const,
      hLabelled, hMethodology, hSemantics, hFacts, hLabels, hTail, Except.ok.injEq,
      Option.some.injEq, exists_eq_left', pure, Except.pure]

/-- Every lens of the catalog is one the browser reads. -/
theorem classifierCatalog_readable : ∀ descriptor ∈ classifierCatalog,
    DescriptorReadable descriptor := by
  have hKeys : ∀ descriptor ∈ classifierCatalog, isClassifierKey descriptor.id = true ∧
      (∀ fact ∈ descriptor.requiredFacts, isClassifierKey fact = true) ∧
      descriptor.requiredFacts.Nodup ∧ descriptor.labels ≠ [] ∧
      (descriptor.labels.map (·.key)).Nodup ∧
      ∀ label ∈ descriptor.labels, isClassifierKey label.key = true := by
    decide
  have hTexts : ∀ descriptor ∈ classifierCatalog, isBlank descriptor.version = false ∧
      isBlank descriptor.title = false ∧
      ∀ label ∈ descriptor.labels, isBlank label.label = false ∧
        isBlank label.description = false := by
    simp only [classifierCatalog, List.forall_mem_cons, label, List.not_mem_nil, false_implies,
      implies_true, and_true]
    repeat' apply And.intro
    all_goals exact isBlank_ofList rfl
  intro descriptor hMem
  obtain ⟨hId, hFacts, hFactsDistinct, hLabelled, hDistinct, hLabelKeys⟩ := hKeys descriptor hMem
  obtain ⟨hVersion, hTitle, hLabelTexts⟩ := hTexts descriptor hMem
  refine ⟨hId, hVersion, hTitle, hFacts, hFactsDistinct, hLabelled, fun label hLabel => ?_,
    hDistinct⟩
  exact ⟨hLabelKeys label hLabel, (hLabelTexts label hLabel).1, (hLabelTexts label hLabel).2⟩

theorem classifierCatalog_ids : (classifierCatalog.map (·.id)).Nodup := by
  decide +kernel

/-- **The catalog is read back.** -/
theorem parseClassifierCatalog_json :
    parseClassifierCatalog (some (.arr (classifierCatalog.map descriptorJson))) =
      .ok classifierCatalog := by
  have hDescriptors : parseDescriptors (classifierCatalog.map descriptorJson) [] =
      .ok classifierCatalog :=
    parseDescriptors_json classifierCatalog_readable classifierCatalog_ids
      fun _ _ => List.not_mem_nil
  have hSome : (classifierCatalog.map descriptorJson).isEmpty = false := rfl
  simp only [parseClassifierCatalog, array?_arr, bind_eq_ok, require_eq_ok, Option.some.injEq,
    exists_eq_left', ensure_eq_ok, hSome, hDescriptors, exists_const, and_self]

-- ---------------------------------------------------------------------------
-- Assessments and results
-- ---------------------------------------------------------------------------

/-- Every rule is read back. -/
theorem parseRuleId_json {rule parsed : Bip110RuleId} :
    parseRuleId (some (.str (ruleIdName rule))) = .ok parsed ↔ parsed = rule := by
  unfold parseRuleId
  rw [require_eq_ok]
  refine constant?_name (by cases rule <;> simp [Bip110RuleId.all]) fun other _ h => ?_
  revert h
  cases rule <;> cases other <;> simp [ruleIdName]

/-- Distinct rules are read back. -/
theorem parseRuleIds_json {rules parsed : List Bip110RuleId} {field : String} :
    parseRuleIds (some (ruleIds rules)) field = .ok parsed ↔ rules.Nodup ∧ parsed = rules := by
  have hItems : ∀ found, ((rules.map ruleIdName).map Json.str).mapM
      (fun item => parseRuleId (some item)) = .ok found ↔ found = rules := by
    intro found
    have hRules := @mapM_eq_ok_iff _ _ _ (fun rule => parseRuleId (some (.str (ruleIdName rule))))
      (fun _ => True) id rules (fun rule _ other => by rw [parseRuleId_json, true_and]; rfl) found
    rw [List.map_id] at hRules
    rw [List.mapM_map, List.mapM_map]
    simpa [Function.comp_def] using hRules
  simp only [parseRuleIds, ruleIds, strings, array?_arr, bind_eq_ok, require_eq_ok,
    Option.some.injEq, exists_eq_left', hItems, exists_eq_left, ensure_eq_ok, Bool.not_eq_false',
    decide_eq_true_eq, exists_const, pure, Except.pure, Except.ok.injEq]
  rw [eq_comm (a := parsed)]

theorem parsePrimaryRule_json {value parsed : Option Bip110RuleId} :
    parsePrimaryRule (some (optional (fun rule => .str (ruleIdName rule)) value)) = .ok parsed ↔
      parsed = value := by
  have h := @nullable_json _ parseRuleId (fun rule => .str (ruleIdName rule)) (fun _ => True)
    (fun _ => rfl) (fun rule other => by rw [parseRuleId_json, true_and]) value parsed
  unfold parsePrimaryRule
  rw [h]
  simp

/-- What the browser asks of an assessment. -/
structure AssessmentReadable (assessment : Bip110Assessment) : Prop where
  violated : assessment.violatedRules.Nodup
  unknown : assessment.unknownRules.Nodup
  consistent : isInconsistent assessment = false

/-- When an assessment is read back, and as what. -/
theorem parseBip110Assessment_json {value parsed : Option Bip110Assessment} :
    parseBip110Assessment (some (optional assessmentJson value)) = .ok parsed ↔
      (∀ assessment ∈ value, AssessmentReadable assessment) ∧ parsed = value := by
  cases value with
  | none => simp [parseBip110Assessment, optional, eq_comm]
  | some assessment =>
    have hRecord : ∀ message, ensureRecord (some (assessmentJson assessment))
        ["status", "primary_rule", "violated_rules", "unknown_rules"] message = .ok () :=
      fun message => ensureRecord_obj rfl
    have hStatus : constant? statusName [.compatible, .violating, .indeterminate]
        (some (.str (statusName assessment.status))) = some assessment.status := by
      cases assessment.status <;> rfl
    have hNull : isNull (some (assessmentJson assessment)) = false := rfl
    simp only [parseBip110Assessment, optional, hNull, hRecord, bind_eq_ok, exists_const, true_and,
      Bool.false_eq_true, if_false, Option.mem_def, Option.some.injEq, forall_eq']
    simp only [assessmentJson, Json.get, List.lookup, String.reduceBEq, beq_self_eq_true,
      require_eq_ok, ensure_eq_ok, hStatus, parsePrimaryRule_json, parseRuleIds_json, and_assoc,
      Option.some.injEq, exists_eq_left', exists_and_left, exists_eq_left, exists_const, pure,
      Except.pure, Except.ok.injEq]
    constructor
    · rintro ⟨hViolated, hUnknown, hConsistent, rfl⟩
      exact ⟨⟨hViolated, hUnknown, hConsistent⟩, rfl⟩
    · rintro ⟨h, rfl⟩
      exact ⟨h.violated, h.unknown, h.consistent, rfl⟩

/-- `null` or a key is read as it is. -/
theorem nullableKey?_json {value parsed : Option String} :
    nullableKey? (some (optional Json.str value)) = some parsed ↔
      (∀ key ∈ value, isClassifierKey key = true) ∧ parsed = value := by
  cases value with
  | none =>
    have hNull : nullableKey? (some (optional Json.str none)) = some none := rfl
    rw [hNull, Option.some.injEq]
    constructor
    · rintro rfl
      exact ⟨fun key hKey => absurd hKey (by simp), rfl⟩
    · rintro ⟨-, rfl⟩
      rfl
  | some key =>
    have hKey : nullableKey? (some (optional Json.str (some key))) =
        (classifierKey? (some (.str key))).map some := rfl
    rw [hKey, Option.map_eq_some_iff]
    simp only [classifierKey?_str, and_assoc, exists_and_left, exists_eq_left, Option.mem_def,
      Option.some.injEq, forall_eq']
    rw [eq_comm (a := parsed)]

/-- What the browser asks of the compact result of a lens. -/
structure ResultReadable (descriptor : ClassifierDescriptor) (result : ClassificationResult) :
    Prop where
  lens : result.classifierId = descriptor.id
  primary : ∀ key ∈ result.primaryLabel, isClassifierKey key = true
  compact : result.evidence = none
  labels : ∀ label ∈ result.labels, isClassifierKey label = true
  labelsDistinct : result.labels.Nodup
  facts : ∀ fact ∈ result.missingFacts, isClassifierKey fact = true
  factsDistinct : result.missingFacts.Nodup
  consistent : ((result.labels.isEmpty && result.state != .partialResult) ||
      (result.labels.any fun label => !(descriptor.labels.map (·.key)).contains label) ||
      (result.primaryLabel.any fun primary => !result.labels.contains primary) ||
      (result.state == .complete && !result.missingFacts.isEmpty) ||
      (result.state == .partialResult && result.missingFacts.isEmpty)) = false

/-- When a result is read back, and as what. -/
theorem parseClassificationResult_json {result parsed : ClassificationResult}
    {descriptor : ClassifierDescriptor} :
    parseClassificationResult (some (resultJson result)) descriptor = .ok parsed ↔
      ResultReadable descriptor result ∧ parsed = result := by
  have hRecord : ∀ message, ensureRecord (some (resultJson result)) ["classifier_id", "state",
      "primary_label", "labels", "missing_facts", "evidence"] message = .ok () :=
    fun message => ensureRecord_obj rfl
  have hState : constant? resultStateName [.complete, .partialResult]
      (some (.str (resultStateName result.state))) = some result.state := by
    cases result.state <;> rfl
  have hEvidence : isNull (some (optional evidenceJson result.evidence)) = true ↔
      result.evidence = none := by
    cases hEq : result.evidence with
    | none => simp [optional]
    | some evidence => cases evidence <;> simp [optional, evidenceJson]
  simp only [parseClassificationResult, hRecord, bind_eq_ok, exists_const, true_and]
  simp only [resultJson, Json.get, List.lookup, String.reduceBEq, beq_self_eq_true,
    string?_str, require_eq_ok, ensure_eq_ok, hState, nullableKey?_json, parseStringKeys_json,
    and_assoc, Option.some.injEq, exists_eq_left', exists_and_left, exists_eq_left, exists_const,
    pure, Except.pure, Except.ok.injEq, Bool.not_eq_false', bne_eq_false_iff_eq, hEvidence]
  constructor
  · rintro ⟨hLens, hPrimary, hCompact, hLabels, hDistinct, hFacts, hFactsDistinct, hConsistent, rfl⟩
    exact ⟨⟨hLens, hPrimary, hCompact, hLabels, hDistinct, hFacts, hFactsDistinct, hConsistent⟩,
      by rw [← hCompact]⟩
  · rintro ⟨h, rfl⟩
    exact ⟨h.lens, h.primary, h.compact, h.labels, h.labelsDistinct, h.facts, h.factsDistinct,
      h.consistent, by rw [← h.compact]⟩

/-- When a row's results are read back, and as what. -/
theorem parseClassificationResults_json {results parsed : List ClassificationResult}
    {catalog : List ClassifierDescriptor} :
    parseClassificationResults (some (.arr (results.map resultJson))) catalog = .ok parsed ↔
      List.Forall₂ (fun result descriptor => ResultReadable descriptor result) results catalog ∧
        parsed = results := by
  have hPairs : ∀ found, ((results.map resultJson).zip catalog).mapM
      (fun pair => parseClassificationResult (some pair.1) pair.2) = .ok found ↔
        (∀ pair ∈ results.zip catalog, ResultReadable pair.2 pair.1) ∧
          found = (results.zip catalog).map Prod.fst := by
    intro found
    rw [List.zip_map_left, List.mapM_map]
    exact mapM_eq_ok_iff fun pair _ other => parseClassificationResult_json
  have hReadable : results.length = catalog.length →
      ((∀ pair ∈ results.zip catalog, ResultReadable pair.2 pair.1) ↔
        List.Forall₂ (fun result descriptor => ResultReadable descriptor result)
          results catalog) := by
    intro hLength
    rw [List.forall₂_iff_zip]
    exact ⟨fun h => ⟨hLength, fun hMem => h _ hMem⟩, fun h pair hMem => h.2 hMem⟩
  have hSame : ∀ h : results.length = catalog.length, (results.zip catalog).map Prod.fst = results :=
    fun h => List.map_fst_zip (le_of_eq h)
  simp only [parseClassificationResults, array?_arr, bind_eq_ok, require_eq_ok, Option.some.injEq,
    exists_eq_left', ensure_eq_ok, bne_eq_false_iff_eq, List.length_map, exists_const, hPairs]
  constructor
  · rintro ⟨hLength, hResults, rfl⟩
    exact ⟨(hReadable hLength).mp hResults, hSame hLength⟩
  · rintro ⟨hResults, rfl⟩
    have hLength := hResults.length_eq
    exact ⟨hLength, (hReadable hLength).mpr hResults, (hSame hLength).symm⟩

-- ---------------------------------------------------------------------------
-- Transactions
-- ---------------------------------------------------------------------------

/-- What the browser asks of the facts of a transaction's structure. -/
structure StructureReadable (facts : TransactionStructure) : Prop where
  inputCount : 0 < facts.inputCount ∧ facts.inputCount ≤ maxSafeInteger
  outputCount : 0 < facts.outputCount ∧ facts.outputCount ≤ maxSafeInteger
  opReturnBytes : facts.opReturnBytes ≤ maxSafeInteger
  outputSats : facts.outputSats ≤ maxSafeInteger
  witnessBytes : facts.witnessBytes ≤ maxSafeInteger

/-- When a structure is read back, and as what. -/
theorem parseTransactionStructure_json {value parsed : Option TransactionStructure} :
    parseTransactionStructure (some (optional structureJson value)) = .ok parsed ↔
      (∀ facts ∈ value, StructureReadable facts) ∧ parsed = value := by
  cases value with
  | none => simp [parseTransactionStructure, optional, eq_comm]
  | some facts =>
    have hRecord : ∀ message, ensureRecord (some (structureJson facts)) ["input_count",
        "output_count", "op_return_bytes", "output_sats", "witness_bytes"] message = .ok () :=
      fun message => ensureRecord_obj rfl
    have hNull : isNull (some (structureJson facts)) = false := rfl
    simp only [parseTransactionStructure, optional, hNull, hRecord, bind_eq_ok, exists_const,
      true_and, Bool.false_eq_true, if_false, Option.mem_def, Option.some.injEq, forall_eq']
    simp only [structureJson, Json.get, List.lookup, String.reduceBEq, beq_self_eq_true,
      require_eq_ok, ensure_eq_ok, nonNegativeInteger?_number, and_assoc, exists_and_left,
      exists_eq_left, exists_const, beq_eq_false_iff_ne, pure, Except.pure, Except.ok.injEq]
    constructor
    · rintro ⟨hInputs, hInput, hOutputs, hOutput, hOpReturn, hSats, hWitness, rfl⟩
      exact ⟨⟨⟨Nat.pos_of_ne_zero hInput, hInputs⟩, ⟨Nat.pos_of_ne_zero hOutput, hOutputs⟩,
        hOpReturn, hSats, hWitness⟩, rfl⟩
    · rintro ⟨h, rfl⟩
      exact ⟨h.inputCount.2, h.inputCount.1.ne', h.outputCount.2, h.outputCount.1.ne',
        h.opReturnBytes, h.outputSats, h.witnessBytes, rfl⟩

/-- The results of a row as the browser reads them, with the lenses of `catalog`. -/
def ResultsReadable (catalog : List ClassifierDescriptor) (entry : MempoolEntry) : Prop :=
  match entry.bip110 with
  | none => entry.classifications = []
  | some _ => List.Forall₂ (fun result descriptor => ResultReadable descriptor result)
      entry.classifications catalog

theorem parseRowResults_json {entry : MempoolEntry} {parsed : List ClassificationResult}
    {catalog : List ClassifierDescriptor} :
    parseRowResults entry.bip110 (some (.arr (entry.classifications.map resultJson))) catalog =
        .ok parsed ↔
      ResultsReadable catalog entry ∧ parsed = entry.classifications := by
  unfold parseRowResults ResultsReadable
  cases entry.bip110 with
  | some assessment => exact parseClassificationResults_json
  | none =>
    simp only [array?_arr, bind_eq_ok, require_eq_ok, Option.some.injEq, exists_eq_left',
      ensure_eq_ok, Bool.not_eq_false', List.isEmpty_iff, List.map_eq_nil_iff, exists_const, pure,
      Except.pure, Except.ok.injEq]
    constructor
    · rintro ⟨hNone, rfl⟩
      exact ⟨hNone, hNone.symm⟩
    · rintro ⟨hNone, rfl⟩
      exact ⟨hNone, hNone.symm⟩

/-- What the browser asks of a row. -/
structure EntryReadable (catalog : List ClassifierDescriptor) (entry : MempoolEntry) : Prop where
  txid : isHash entry.txid = true
  wtxid : isHash entry.wtxid = true
  vsize : entry.vsize ≤ maxSafeInteger
  vsizePositive : (entry.vsize == 0) = false
  weight : entry.weight ≤ maxSafeInteger
  feeSats : entry.feeSats ≤ maxSafeInteger
  enteredAt : entry.enteredAtMs ≤ maxSafeInteger
  ancestorCount : entry.ancestorCount ≤ maxSafeInteger
  ancestorVsize : entry.ancestorVsize ≤ maxSafeInteger
  ancestorFeeSats : entry.ancestorFeeSats.natAbs ≤ maxSafeInteger
  descendantCount : entry.descendantCount ≤ maxSafeInteger
  descendantVsize : entry.descendantVsize ≤ maxSafeInteger
  weightConsistent : (entry.weight == 0 || entry.weight > entry.vsize * 4) = false
  ancestry : (entry.ancestorCount == 0 || entry.descendantCount == 0 ||
    entry.ancestorVsize < entry.vsize || entry.descendantVsize < entry.vsize) = false
  facts : ∀ facts ∈ entry.transactionStructure, StructureReadable facts
  assessment : ∀ assessment ∈ entry.bip110, AssessmentReadable assessment
  coupled : (entry.transactionStructure.isNone != entry.bip110.isNone) = false
  results : ResultsReadable catalog entry
  policy : (entry.bip110.any (policyMismatch entry.classifications)) = false

/-- **When a row is read back**, and as what. -/
theorem parseTransaction_json {entry parsed : MempoolEntry}
    {catalog : List ClassifierDescriptor} :
    parseTransaction (some (entryJson entry)) catalog = .ok parsed ↔
      EntryReadable catalog entry ∧ parsed = entry := by
  have hRecord : ∀ message, ensureRecord (some (entryJson entry)) ["txid", "wtxid", "vsize",
      "weight", "fee_sats", "entered_at_ms", "ancestor_count", "ancestor_vsize",
      "ancestor_fee_sats", "descendant_count", "descendant_vsize", "replaceable", "structure",
      "classifications", "bip110"] message = .ok () := fun message => ensureRecord_obj rfl
  simp only [parseTransaction, hRecord, bind_eq_ok, exists_const, true_and]
  simp only [entryJson, Json.get, List.lookup, String.reduceBEq, beq_self_eq_true, require_eq_ok,
    ensure_eq_ok, hash?_str, nonNegativeInteger?_number, safeInteger?_num, bool?_bool,
    parseTransactionStructure_json, parseBip110Assessment_json, and_assoc, exists_and_left,
    exists_eq_left, exists_eq_left', exists_const, Option.some.injEq, parseRowResults_json, pure,
    Except.pure, Except.ok.injEq]
  constructor
  · rintro ⟨h1, h2, h3, h4, h5, h6, h7, h8, h9, h10, h11, h12, h13, h14, h15, h16, h17, h18, h19,
      rfl⟩
    exact ⟨⟨h1, h2, h3, h4, h5, h6, h7, h8, h9, h10, h11, h12, h13, h14, h15, h16, h17, h18, h19⟩,
      rfl⟩
  · rintro ⟨h, rfl⟩
    exact ⟨h.txid, h.wtxid, h.vsize, h.vsizePositive, h.weight, h.feeSats, h.enteredAt,
      h.ancestorCount, h.ancestorVsize, h.ancestorFeeSats, h.descendantCount, h.descendantVsize,
      h.weightConsistent, h.ancestry, h.facts, h.assessment, h.coupled, h.results, h.policy, rfl⟩

end MempoolAtlas.Web
