import MempoolAtlas.Lib.Machine
import MempoolAtlas.Lib.Texts

/-!
# Bounded response reading

`read_bounded_response` of `src/rpc_transport.rs`. The body arrives in reads of
any size up to the buffer that is offered; the loop keeps at most `maximum`
bytes, probes one byte past them, and checks the declared length at the end.
What it returns is a function of the bytes alone.

## Results

* `readBoundedResponse_of_delivers` — however the body is split, the outcome is that of its
  bytes.
* `bounded_response_reading` — reading terminates, stays within its bound, and what it returns.
-/

namespace MempoolAtlas.Rpc

open Machine Texts

/-- Why a request fails. -/
inductive RpcTransportError where
  | transport
  | unsupportedTransferEncoding
  | incompleteResponseBody (expected actual : Nat)
  | responseTooLarge (actual maximum : Nat)
deriving DecidableEq, Repr

-- ---------------------------------------------------------------------------
-- Headers
-- ---------------------------------------------------------------------------

def asciiLower (c : Char) : Char :=
  if 0x41 ≤ c.toNat ∧ c.toNat ≤ 0x5a then Char.ofNat (c.toNat + 0x20) else c

/-- `str::eq_ignore_ascii_case`. -/
def eqIgnoreAsciiCase (a b : String) : Bool :=
  a.toList.map asciiLower == b.toList.map asciiLower

/-- `str::parse::<usize>`: an optional plus sign, then decimal digits. -/
def parseUsize (text : List Char) : Option Nat :=
  let digits := if text.head? = some '+' then text.tail else text
  let value := digits.foldl (fun value c => value * 10 + (c.toNat - 0x30)) 0
  if !digits.isEmpty && digits.all Char.isDigit && value ≤ u64Max then some value else none

/-- Whether the body comes in chunks. -/
def hasTransferEncoding (headers : List (String × String)) : Bool :=
  headers.any fun header => eqIgnoreAsciiCase header.1 "transfer-encoding"

/-- The length that the headers announce, when it counts. -/
def announcedLength (headers : List (String × String)) : Option Nat :=
  ((headers.find? fun header => eqIgnoreAsciiCase header.1 "content-length").map
    fun header => header.2).bind fun length => parseUsize (trim length.toList)

-- ---------------------------------------------------------------------------
-- The loop
-- ---------------------------------------------------------------------------

/-- The bytes read at a time. -/
def bufferBytes : Nat := 8 * 1024

/-- `minreq::ResponseLazy`, its body behind a reader. -/
structure ResponseLazy (σ : Type) where
  statusCode : Nat
  headers : List (String × String)
  reader : σ

/-- The locals of the loop. -/
structure BodyRead (σ : Type) where
  reader : σ
  body : List UInt8

/-- What one read makes of the body. -/
inductive ChunkRead (σ : Type) where
  | more (state : BodyRead σ)
  | ended (body : List UInt8)
  | failed (error : RpcTransportError)

section
variable {σ : Type} (read : σ → Nat → Except Unit (List UInt8 × σ)) (maximum : Nat)

/-- The loop body. `read reader limit` is `Read::read` with a buffer of `limit` bytes. -/
def readChunk (state : BodyRead σ) : ChunkRead σ :=
  let remaining := maximum - state.body.length
  let readLimit := min (saturatingAdd remaining 1) bufferBytes
  match read state.reader readLimit with
  | .error () => .failed .transport
  | .ok (bytes, reader) =>
    if bytes.length = 0 then .ended state.body
    else if bytes.length > remaining then
      .failed (.responseTooLarge (saturatingAdd maximum 1) maximum)
    else .more { reader, body := state.body ++ bytes }

/-- The loop, or `none` when it has not ended after `fuel` reads. -/
def readBody : Nat → BodyRead σ → Option (Except RpcTransportError (List UInt8))
  | 0, _ => none
  | fuel + 1, state =>
    match readChunk read maximum state with
    | .more state => readBody fuel state
    | .ended body => some (.ok body)
    | .failed error => some (.error error)

/-- A body must have its announced length. -/
def checkBodyLength (statusCode : Nat) (announced : Option Nat) (body : List UInt8) :
    Except RpcTransportError (Nat × List UInt8) :=
  match announced with
  | some expected =>
    if body.length ≠ expected then .error (.incompleteResponseBody expected body.length)
    else .ok (statusCode, body)
  | none => .ok (statusCode, body)

/-- `read_bounded_response`: the announced length is checked before anything is read. -/
def readBoundedResponse (fuel : Nat) (response : ResponseLazy σ) :
    Option (Except RpcTransportError (Nat × List UInt8)) :=
  if hasTransferEncoding response.headers then some (.error .unsupportedTransferEncoding)
  else
    let announced := announcedLength response.headers
    match announced.filter (· > maximum) with
    | some actual => some (.error (.responseTooLarge actual maximum))
    | none =>
      (readBody read maximum fuel { reader := response.reader, body := [] }).map fun outcome =>
        outcome.bind (checkBodyLength response.statusCode announced)

end

-- ---------------------------------------------------------------------------
-- Readers and outcomes
-- ---------------------------------------------------------------------------

/-- A reader that hands over these bytes in non-empty reads, each no longer than
the buffer offered, and then reports the end. How much a read takes may depend
on anything. -/
inductive Delivers {σ : Type} (read : σ → Nat → Except Unit (List UInt8 × σ)) :
    σ → List UInt8 → Prop
  | ended {reader : σ}
      (hEnd : ∀ limit, 0 < limit → ∃ reader', read reader limit = .ok ([], reader')) :
      Delivers read reader []
  | chunk {reader : σ} {bytes : List UInt8} (taken : Nat → Nat) (next : Nat → σ)
      (hTaken : ∀ limit, 0 < limit → 0 < taken limit ∧ taken limit ≤ limit ∧
        taken limit ≤ bytes.length)
      (hRead : ∀ limit, 0 < limit →
        read reader limit = .ok (bytes.take (taken limit), next limit))
      (hRest : ∀ limit, 0 < limit → Delivers read (next limit) (bytes.drop (taken limit))) :
      Delivers read reader bytes

/-- What a response is worth: too large, cut short or padded, or its bytes. -/
def boundedOutcome (statusCode : Nat) (announced : Option Nat) (maximum : Nat)
    (bytes : List UInt8) : Except RpcTransportError (Nat × List UInt8) :=
  match announced.filter (· > maximum) with
  | some declared => .error (.responseTooLarge declared maximum)
  | none =>
    if bytes.length > maximum then .error (.responseTooLarge (saturatingAdd maximum 1) maximum)
    else checkBodyLength statusCode announced bytes

section
variable {σ : Type} {read : σ → Nat → Except Unit (List UInt8 × σ)} {maximum : Nat}

/-- The offered buffer always has room for a byte past the limit. -/
theorem readLimit_eq (remaining : Nat) :
    min (saturatingAdd remaining 1) bufferBytes = min (remaining + 1) bufferBytes := by
  unfold saturatingAdd bufferBytes u64Max
  omega

/-- One read: more of the bytes, the end of them, or one byte too many. -/
theorem readChunk_more {state : BodyRead σ} {bytes : List UInt8} {taken : Nat} {next : σ}
    (hRead : read state.reader (min (maximum - state.body.length + 1) bufferBytes) =
      .ok (bytes.take taken, next))
    (hTaken : 0 < taken) (hLength : taken ≤ bytes.length) :
    readChunk read maximum state =
      if taken > maximum - state.body.length then
        .failed (.responseTooLarge (saturatingAdd maximum 1) maximum)
      else .more { reader := next, body := state.body ++ bytes.take taken } := by
  have hTake : (bytes.take taken).length = taken := List.length_take_of_le hLength
  unfold readChunk
  simp only [readLimit_eq, hRead, hTake]
  rw [if_neg hTaken.ne']

/-- **With enough fuel the loop reads the body**, or refuses it. -/
theorem readBody_of_delivers {reader : σ} {bytes : List UInt8} (h : Delivers read reader bytes)
    {body : List UInt8} (hBody : body.length ≤ maximum) {fuel : Nat}
    (hFuel : bytes.length < fuel) :
    readBody read maximum fuel { reader, body } =
      some (if body.length + bytes.length > maximum then
        .error (.responseTooLarge (saturatingAdd maximum 1) maximum)
      else .ok (body ++ bytes)) := by
  induction h generalizing body fuel with
  | @ended reader hEnd =>
    obtain ⟨fuel, rfl⟩ := Nat.exists_eq_add_one_of_ne_zero (show fuel ≠ 0 by omega)
    have hPositive : 0 < min (maximum - body.length + 1) bufferBytes :=
      Nat.lt_min.mpr ⟨Nat.succ_pos _, by decide⟩
    obtain ⟨reader', hRead⟩ := hEnd _ hPositive
    have hChunk : readChunk read maximum { reader, body } = .ended body := by
      unfold readChunk
      simp only [readLimit_eq, hRead]
      rfl
    rw [readBody, hChunk]
    rw [List.length_nil, Nat.add_zero, if_neg (Nat.not_lt.mpr hBody), List.append_nil]
  | @chunk reader bytes taken next hTaken hRead hRest ih =>
    obtain ⟨fuel, rfl⟩ := Nat.exists_eq_add_one_of_ne_zero (show fuel ≠ 0 by omega)
    have hPositive : 0 < min (maximum - body.length + 1) bufferBytes :=
      Nat.lt_min.mpr ⟨Nat.succ_pos _, by decide⟩
    obtain ⟨hSome, hLimit, hLength⟩ := hTaken _ hPositive
    have hChunk := @readChunk_more _ read maximum ⟨reader, body⟩ _ _ _ (hRead _ hPositive) hSome
      hLength
    have hAfter := fun kept hKept hFewer => @ih _ hPositive kept hKept fuel hFewer
    generalize taken (min (maximum - body.length + 1) bufferBytes) = count at *
    rw [readBody, hChunk]
    by_cases hOver : count > maximum - body.length
    · rw [if_pos hOver, if_pos (by omega)]
    · rw [if_neg hOver]
      have hTake : (bytes.take count).length = count := List.length_take_of_le hLength
      have hKept : (body ++ bytes.take count).length ≤ maximum := by
        rw [List.length_append, hTake]
        omega
      have hFewer : (bytes.drop count).length < fuel := by
        rw [List.length_drop]
        omega
      have hTotal : (body ++ bytes.take count).length + (bytes.drop count).length =
          body.length + bytes.length := by
        rw [List.length_append, hTake, List.length_drop]
        omega
      have hRead' := hAfter _ hKept hFewer
      rw [hTotal, List.append_assoc, List.take_append_drop] at hRead'
      exact hRead'

/-- However the network splits the body, the outcome is that of its bytes. -/
theorem readBoundedResponse_of_delivers {response : ResponseLazy σ} {bytes : List UInt8}
    (hEncoding : hasTransferEncoding response.headers = false)
    (hDelivers : Delivers read response.reader bytes) {fuel : Nat} (hFuel : bytes.length < fuel) :
    readBoundedResponse read maximum fuel response =
      some (boundedOutcome response.statusCode (announcedLength response.headers) maximum
        bytes) := by
  unfold readBoundedResponse boundedOutcome
  simp only [hEncoding, Bool.false_eq_true, if_false]
  cases (announcedLength response.headers).filter (· > maximum) with
  | some declared => rfl
  | none =>
    simp only
    rw [readBody_of_delivers hDelivers (Nat.zero_le _) hFuel, List.length_nil, Nat.zero_add,
      List.nil_append, Option.map_some]
    split
    · rfl
    · rfl

/-- The loop never holds more of the body than `maximum` bytes, whatever the
reader does. -/
theorem readChunk_body_le {state state' : BodyRead σ} (hBody : state.body.length ≤ maximum)
    (h : readChunk read maximum state = .more state') : state'.body.length ≤ maximum := by
  simp only [readChunk] at h
  split at h
  · cases h
  · split at h
    · cases h
    · split at h
      · cases h
      · next hRoom =>
        obtain rfl := ChunkRead.more.inj h
        rw [List.length_append]
        omega

/-- A body being read never exceeds the bound. -/
theorem body_le_of_reads {start state : BodyRead σ} (hStart : start.body.length ≤ maximum)
    (h : Relation.ReflTransGen (fun s s' => readChunk read maximum s = .more s') start state) :
    state.body.length ≤ maximum := by
  induction h with
  | refl => exact hStart
  | tail _ hStep ih => exact readChunk_body_le ih hStep

end

theorem checkBodyLength_ne_tooLarge {statusCode actual maximum : Nat} {announced : Option Nat}
    {body : List UInt8} :
    checkBodyLength statusCode announced body ≠ .error (.responseTooLarge actual maximum) := by
  unfold checkBodyLength
  split
  · split
    · exact fun h => by cases h
    · exact fun h => by cases h
  · exact fun h => by cases h

/-- A response is refused for its size just when it announces or has too much. -/
theorem boundedOutcome_tooLarge_iff {statusCode maximum : Nat} {announced : Option Nat}
    {bytes : List UInt8} :
    (∃ actual, boundedOutcome statusCode announced maximum bytes =
        .error (.responseTooLarge actual maximum)) ↔
      (∃ declared ∈ announced, declared > maximum) ∨ bytes.length > maximum := by
  unfold boundedOutcome
  cases hDeclared : announced.filter (· > maximum) with
  | some declared =>
    obtain ⟨hOver, hGt⟩ := Option.filter_eq_some_iff.mp hDeclared
    have hGt : declared > maximum := by simpa using hGt
    exact ⟨fun _ => Or.inl ⟨declared, hOver, hGt⟩, fun _ => ⟨declared, rfl⟩⟩
  | none =>
    have hNone : ¬∃ declared ∈ announced, declared > maximum := by
      rintro ⟨declared, rfl, hGt⟩
      simp only [Option.filter_some, hGt, decide_true, if_true] at hDeclared
      cases hDeclared
    simp only [hNone, false_or]
    split
    · next hOver => exact ⟨fun _ => hOver, fun _ => ⟨_, rfl⟩⟩
    · next hFits =>
      constructor
      · rintro ⟨actual, h⟩
        exact absurd h checkBodyLength_ne_tooLarge
      · exact fun hOver => absurd hOver hFits

theorem checkBodyLength_cases {statusCode : Nat} {announced : Option Nat} {body : List UInt8} :
    (∃ declared ∈ announced, declared ≠ body.length ∧ checkBodyLength statusCode announced body =
        .error (.incompleteResponseBody declared body.length)) ∨
      (∀ declared ∈ announced, declared = body.length) ∧
        checkBodyLength statusCode announced body = .ok (statusCode, body) := by
  cases announced with
  | none =>
    refine Or.inr ⟨fun declared hDeclared => ?_, rfl⟩
    cases hDeclared
  | some expected =>
    by_cases hSame : body.length = expected
    · refine Or.inr ⟨fun declared hDeclared => ?_,
        by rw [checkBodyLength, if_neg (not_not.mpr hSame)]⟩
      obtain rfl := Option.some.inj hDeclared
      exact hSame.symm
    · exact Or.inl ⟨expected, rfl, Ne.symm hSame, by rw [checkBodyLength, if_pos hSame]⟩

/-- A response that fits is held to its declared length, and else returned whole. -/
theorem boundedOutcome_of_fits {statusCode maximum : Nat} {announced : Option Nat}
    {bytes : List UInt8}
    (hFits : ¬((∃ declared ∈ announced, declared > maximum) ∨ bytes.length > maximum)) :
    ((∃ expected actual, boundedOutcome statusCode announced maximum bytes =
        .error (.incompleteResponseBody expected actual)) ↔
      ∃ declared ∈ announced, declared ≠ bytes.length) ∧
    ((∀ declared ∈ announced, declared = bytes.length) →
      boundedOutcome statusCode announced maximum bytes = .ok (statusCode, bytes)) := by
  have hChecked : boundedOutcome statusCode announced maximum bytes =
      checkBodyLength statusCode announced bytes := by
    have hNone : announced.filter (· > maximum) = none := by
      cases announced with
      | none => rfl
      | some declared =>
        have hLe : ¬declared > maximum := fun hGt => hFits (Or.inl ⟨declared, rfl, hGt⟩)
        rw [Option.filter_some, if_neg (by simpa using hLe)]
    unfold boundedOutcome
    rw [hNone]
    exact if_neg fun hOver => hFits (Or.inr hOver)
  rw [hChecked]
  rcases @checkBodyLength_cases statusCode announced bytes with
    ⟨declared, hDeclared, hNe, hError⟩ | ⟨hSame, hOk⟩
  · rw [hError]
    exact ⟨⟨fun _ => ⟨declared, hDeclared, hNe⟩, fun _ => ⟨_, _, rfl⟩⟩,
      fun hAll => absurd (hAll declared hDeclared) hNe⟩
  · rw [hOk]
    refine ⟨⟨?_, ?_⟩, fun _ => rfl⟩
    · rintro ⟨expected, actual, h⟩
      cases h
    · rintro ⟨declared, hDeclared, hNe⟩
      exact absurd (hSame declared hDeclared) hNe

/-- Bounded reading terminates, holds at most `maximum` bytes, and returns what the
declared length and the bytes decide, however they were split. -/
theorem bounded_response_reading {σ : Type} (read : σ → Nat → Except Unit (List UInt8 × σ))
    (maximum : Nat) (response : ResponseLazy σ) (bytes : List UInt8)
    (hEncoding : hasTransferEncoding response.headers = false)
    (hDelivers : Delivers read response.reader bytes) :
    ∃ outcome, (∀ fuel, bytes.length < fuel →
        readBoundedResponse read maximum fuel response = some outcome) ∧
      outcome = boundedOutcome response.statusCode (announcedLength response.headers) maximum
        bytes ∧
      ((∃ actual, outcome = .error (.responseTooLarge actual maximum)) ↔
        (∃ declared ∈ announcedLength response.headers, declared > maximum) ∨
          bytes.length > maximum) ∧
      (¬((∃ declared ∈ announcedLength response.headers, declared > maximum) ∨
          bytes.length > maximum) →
        ((∃ expected actual, outcome = .error (.incompleteResponseBody expected actual)) ↔
          ∃ declared ∈ announcedLength response.headers, declared ≠ bytes.length) ∧
        ((∀ declared ∈ announcedLength response.headers, declared = bytes.length) →
          outcome = .ok (response.statusCode, bytes))) ∧
      ∀ state, Relation.ReflTransGen (fun s s' => readChunk read maximum s = .more s')
        { reader := response.reader, body := [] } state → state.body.length ≤ maximum :=
  ⟨_, fun _ hFuel => readBoundedResponse_of_delivers hEncoding hDelivers hFuel, rfl,
    boundedOutcome_tooLarge_iff, boundedOutcome_of_fits,
    fun _ hReads => body_le_of_reads (Nat.zero_le _) hReads⟩

/-- A reader that hands over one byte at a time. -/
def trickle (left : List UInt8) (_ : Nat) : Except Unit (List UInt8 × List UInt8) :=
  .ok (left.take 1, left.drop 1)

/-- A reader that yields one byte at a time delivers. -/
theorem delivers_trickle (bytes : List UInt8) : Delivers trickle bytes bytes := by
  induction bytes with
  | nil => exact .ended fun _ _ => ⟨[], rfl⟩
  | cons byte rest ih =>
    exact .chunk (fun _ => 1) (fun _ => rest)
      (fun limit hLimit => ⟨Nat.one_pos, hLimit, Nat.succ_pos _⟩) (fun _ _ => rfl) fun _ _ => ih

/-- Three bytes, declared as three, one at a time, with room for no more. -/
theorem bounded_response_reading_trickle :
    ∃ outcome, (∀ fuel, 3 < fuel → readBoundedResponse trickle 3 fuel
        ⟨200, [("Content-Length", " 3")], [1, 2, 3]⟩ = some outcome) ∧
      outcome = .ok (200, [1, 2, 3]) := by
  obtain ⟨outcome, hRead, rfl, -⟩ := bounded_response_reading trickle 3
    ⟨200, [("Content-Length", " 3")], [1, 2, 3]⟩ [1, 2, 3] (by decide) (delivers_trickle _)
  exact ⟨_, hRead, by decide⟩

end MempoolAtlas.Rpc
