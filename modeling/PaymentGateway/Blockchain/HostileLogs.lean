import PaymentGateway.Blockchain.TransferLog

/-!
# Logs of any contract

A contract may emit anything under the `Transfer` topic. `RawEvmLog.decode` is the standard's
reading of a log: the signature, two addresses of 32 bytes, one positive word of data.

**Theorem (`parseTransferLogs_exact`).** The parser reads a log as the standard does, unless the
log is mishandled (`RawEvmLog.Mishandled`): a topic of the right length and padding that is no
hexadecimal makes it throw, and so does an invalid emitter, and data of less than 32 bytes is read
as an amount. A list of logs gives the transfers of its logs in order exactly when none of them is
mishandled. `addressToTopic` and `addressFromTopic` are inverse to each other.

Each helper has one lemma that says what it does on every text (`addressFromTopic_cases`,
`amountFromData_eq`); the parser is then a walk over their cases. A mishandled log throws or adds a
transfer, so it never goes unnoticed in a list (`parseTransferLogs_eq_ok`).
-/

namespace PaymentGateway

open Fallible

variable {topic data address : String} {log : RawEvmLog}

/-! ## The standard -/

/-- The address in a topic of 32 bytes whose first twelve are zero. -/
def topicAddress (topic : String) : Option String :=
  let hex := stripHexPrefix topic
  if hex.length = 64 ∧ hex.all Hex.isDigit = true ∧ hex.take 24 = addressPadding then
    some (toLowerCase (String.ofList ('0' :: 'x' :: hex.drop 24)))
  else
    none

/-- The number in a word of 32 bytes. -/
def dataWord (data : String) : Option Nat :=
  let hex := stripHexPrefix data
  if hex.length = 64 ∧ hex.all Hex.isDigit = true then some (Hex.value hex) else none

/-- The transfer that a log stands for by the standard. -/
def RawEvmLog.decode (log : RawEvmLog) : Option ParsedTransfer :=
  match log.topics with
  | [topic0, topic1, topic2] => do
    guard (toLowerCase topic0 = transferEventTopic)
    let source ← topicAddress topic1
    let target ← topicAddress topic2
    let amount ← dataWord log.data
    guard (0 < amount ∧ isStructurallyValidEvmAddress log.address = true)
    return ⟨log.logIndex, some (toLowerCase log.address), some source, target, amount⟩
  | _ => none

/-! ## What the helpers do -/

/-- A topic with the length and the padding of an address that is not hexadecimal. -/
def Stray (topic : String) : Prop :=
  let hex := stripHexPrefix topic
  Utf16.length hex = 64 ∧ hex.take 24 = addressPadding ∧ hex.all Hex.isDigit = false

instance : DecidablePred Stray := fun topic => by
  unfold Stray
  infer_instance

/-- Data of at most 32 bytes that writes a positive number. -/
def Positive (data : String) : Prop :=
  let hex := stripHexPrefix data
  hex.length ≤ 64 ∧ hex.all Hex.isDigit = true ∧ 0 < Hex.value hex

instance : DecidablePred Positive := fun data => by
  unfold Positive
  infer_instance

theorem all_addressPadding : addressPadding.all Hex.isDigit = true := by decide

/-- A body of 64 characters behind the padding is hexadecimal when its address is. -/
theorem isWord_tail {hex : List Char} (hlength : Utf16.length hex = 64)
    (hpadding : hex.take 24 = addressPadding) :
    Hex.isWord 40 ('0' :: 'x' :: hex.drop 24) = hex.all Hex.isDigit := by
  have hsplit : hex = addressPadding ++ hex.drop 24 := by
    rw [← hpadding, List.take_append_drop]
  have hall : hex.all Hex.isDigit = (hex.drop 24).all Hex.isDigit := by
    conv_lhs => rw [hsplit, List.all_append, all_addressPadding, Bool.true_and]
  rw [hall]
  cases hdigits : (hex.drop 24).all Hex.isDigit with
  | false => simp [Hex.isWord, hdigits]
  | true =>
    have hhex : ∀ c ∈ hex, Hex.isDigit c = true := List.all_eq_true.1 (hall.trans hdigits)
    rw [Hex.utf16Length_digits hhex] at hlength
    simp [Hex.isWord, hdigits, hlength]

/-- What becomes of a topic: an address, a failure that the parser catches, or one that it does not
catch. -/
theorem addressFromTopic_cases (topic : String) :
    (∃ address, topicAddress topic = some address ∧ ¬Stray topic ∧
      addressFromTopic topic = .ok address) ∨
    (topicAddress topic = none ∧ ¬Stray topic ∧
      ∃ message, addressFromTopic topic = .error (.transferLog message)) ∨
    (topicAddress topic = none ∧ Stray topic ∧
      ∃ message, addressFromTopic topic = .error (.plain message)) := by
  unfold topicAddress Stray addressFromTopic
  dsimp only
  by_cases hlength : Utf16.length (stripHexPrefix topic) = 64
  · rw [if_neg (not_not.2 hlength)]
    by_cases hpadding : (stripHexPrefix topic).take 24 = addressPadding
    · rw [if_neg (not_not.2 hpadding)]
      have hword := isWord_tail hlength hpadding
      unfold normalizeEvmAddress isStructurallyValidEvmAddress
      rw [String.toList_ofList, hword]
      cases hdigits : (stripHexPrefix topic).all Hex.isDigit with
      | false => simp [hlength, hpadding]
      | true =>
        rw [Hex.utf16Length_digits (List.all_eq_true.1 hdigits)] at hlength
        simp [hlength, hpadding]
    · simp [hpadding]
  · rw [if_pos hlength]
    refine .inr (.inl ⟨if_neg ?_, fun h => hlength h.1, _, rfl⟩)
    rintro ⟨hlist, hdigits, -⟩
    exact hlength ((Hex.utf16Length_digits (List.all_eq_true.1 hdigits)).trans hlist)

/-- What becomes of data: an amount, or a failure that the parser catches. -/
theorem amountFromData_cases (data : String) :
    (∃ amount, amountFromData data = .ok amount ∧ (0 < amount ↔ Positive data) ∧
      dataWord data = if (stripHexPrefix data).length = 64 then some amount else none) ∨
    (dataWord data = none ∧ ¬Positive data ∧
      ∃ message, amountFromData data = .error (.transferLog message)) := by
  unfold amountFromData dataWord Positive
  dsimp only
  by_cases hempty : (stripHexPrefix data).length = 0
  · refine .inr ⟨if_neg (by omega), ?_, _, if_pos hempty⟩
    rw [List.length_eq_zero_iff.1 hempty]
    decide
  · rw [if_neg hempty]
    cases hdigits : (stripHexPrefix data).all Hex.isDigit with
    | false => simp
    | true =>
      by_cases hlength : (stripHexPrefix data).length ≤ 64
      · refine .inl ⟨Hex.value (stripHexPrefix data), ?_, by simp [hlength], by simp⟩
        simp [hlength]
      · refine .inr ⟨if_neg (by omega), fun h => hlength h.1, _, if_pos ?_⟩
        simp [Nat.lt_of_not_le hlength]

/-! ## One log -/

/-- A log under the signature that the parser gets wrong: it stops at a stray topic, or finds two
addresses and a positive amount and then an invalid emitter or less than a word of data. -/
def RawEvmLog.Mishandled (log : RawEvmLog) : Prop :=
  match log.topics with
  | [topic0, topic1, topic2] =>
    toLowerCase topic0 = transferEventTopic ∧
      (Stray topic1 ∨ (topicAddress topic1).isSome = true ∧
        (Stray topic2 ∨ (topicAddress topic2).isSome = true ∧ Positive log.data ∧
          (isStructurallyValidEvmAddress log.address = false ∨
            (stripHexPrefix log.data).length < 64)))
  | _ => False

instance : DecidablePred RawEvmLog.Mishandled := fun log => by
  unfold RawEvmLog.Mishandled
  split <;> infer_instance

/-- The transfer in the data of a log from one address to another. -/
def RawEvmLog.decodeData (log : RawEvmLog) (source target : String) : Option ParsedTransfer := do
  let amount ← dataWord log.data
  guard (0 < amount ∧ isStructurallyValidEvmAddress log.address = true)
  return ⟨log.logIndex, some (toLowerCase log.address), some source, target, amount⟩

theorem RawEvmLog.decode_eq {topic0 topic1 topic2 source target : String}
    (htopics : log.topics = [topic0, topic1, topic2])
    (hsignature : toLowerCase topic0 = transferEventTopic)
    (hsource : topicAddress topic1 = some source) (htarget : topicAddress topic2 = some target) :
    log.decode = log.decodeData source target := by
  simp [decode, decodeData, htopics, hsignature, hsource, htarget]

/-- A positive amount that the parser reads, but by the standard is none. -/
def RawEvmLog.Misread (log : RawEvmLog) : Prop :=
  Positive log.data ∧ (isStructurallyValidEvmAddress log.address = false ∨
    (stripHexPrefix log.data).length < 64)

/-- What becomes of a log that names two addresses. -/
theorem readTransferLog_cases {topic1 topic2 source target : String}
    (hsource : addressFromTopic topic1 = .ok source)
    (htarget : addressFromTopic topic2 = .ok target) (log : RawEvmLog) :
    (¬log.Misread ∧ (readTransferLog log topic1 topic2 = .ok (log.decodeData source target) ∨
      log.decodeData source target = none ∧
        ∃ message, readTransferLog log topic1 topic2 = .error (.transferLog message))) ∨
    (log.Misread ∧ log.decodeData source target = none ∧
      ((∃ message, readTransferLog log topic1 topic2 = .error (.plain message)) ∨
        ∃ t, readTransferLog log topic1 topic2 = .ok (some t))) := by
  unfold readTransferLog RawEvmLog.decodeData RawEvmLog.Misread
  rw [hsource, htarget, bind_ok, bind_ok]
  rcases amountFromData_cases log.data with ⟨amount, hamount, hpositive, hword⟩ |
    ⟨hword, hpositive, message, herror⟩
  · rw [hamount, bind_ok, hword]
    by_cases hzero : amount = 0
    · have hnone : ¬Positive log.data := by simp [← hpositive, hzero]
      refine .inl ⟨fun h => hnone h.1, .inl ?_⟩
      rw [if_pos hzero, hzero]
      by_cases hlength : (stripHexPrefix log.data).length = 64
      · simp [hlength]
        rfl
      · simp [hlength]
        rfl
    · have hpos := Nat.pos_of_ne_zero hzero
      have hsome : Positive log.data := hpositive.1 hpos
      have hle : (stripHexPrefix log.data).length ≤ 64 := hsome.1
      unfold normalizeEvmAddress
      cases hvalid : isStructurallyValidEvmAddress log.address with
      | false =>
        right
        by_cases hlength : (stripHexPrefix log.data).length = 64 <;>
          simp [hzero, hsome, hlength]
      | true =>
        by_cases hlength : (stripHexPrefix log.data).length = 64
        · left
          simp [hzero, hpos, hlength]
        · right
          have hlt : (stripHexPrefix log.data).length < 64 := by omega
          simp [hzero, hsome, hlength, hlt]
  · left
    simp [herror, hword, hpositive, bind_error]

/-- Either the parser reads the log as the standard does, or the log is mishandled, and then the
parser throws or returns a transfer that is none by the standard. -/
theorem parseTransferLog_cases (log : RawEvmLog) :
    (¬log.Mishandled ∧ parseTransferLog log = .ok log.decode) ∨
    (log.Mishandled ∧ log.decode = none ∧
      ((∃ e, parseTransferLog log = .error e) ∨ ∃ t, parseTransferLog log = .ok (some t))) := by
  obtain ⟨address, topics, data, logIndex⟩ := log
  rcases topics with _ | ⟨topic0, _ | ⟨topic1, _ | ⟨topic2, _ | ⟨topic3, topics⟩⟩⟩⟩
  · exact .inl ⟨not_false, rfl⟩
  · exact .inl ⟨not_false, rfl⟩
  · exact .inl ⟨not_false, rfl⟩
  · by_cases hsignature : toLowerCase topic0 = transferEventTopic
    · rcases addressFromTopic_cases topic1 with ⟨source, h1, hstray1, hok1⟩ |
        ⟨h1, hstray1, message, herror1⟩ | ⟨h1, hstray1, message, herror1⟩
      · rcases addressFromTopic_cases topic2 with ⟨target, h2, hstray2, hok2⟩ |
          ⟨h2, hstray2, message, herror2⟩ | ⟨h2, hstray2, message, herror2⟩
        · rw [RawEvmLog.decode_eq rfl hsignature h1 h2]
          have hmishandled : RawEvmLog.Mishandled ⟨address, [topic0, topic1, topic2], data, logIndex⟩ ↔
              RawEvmLog.Misread ⟨address, [topic0, topic1, topic2], data, logIndex⟩ := by
            simp [RawEvmLog.Mishandled, RawEvmLog.Misread, hsignature, h1, h2, hstray1, hstray2]
          rw [hmishandled]
          rcases readTransferLog_cases hok1 hok2 ⟨address, [topic0, topic1, topic2], data, logIndex⟩
            with ⟨hhandled, hread | ⟨hnone, message, hread⟩⟩ |
              ⟨hmisread, hnone, ⟨message, hread⟩ | ⟨t, hread⟩⟩
          · exact .inl ⟨hhandled, by simp [parseTransferLog, hsignature, hread]⟩
          · exact .inl ⟨hhandled, by simp [parseTransferLog, hsignature, hread, hnone]⟩
          · exact .inr ⟨hmisread, hnone, .inl (by simp [parseTransferLog, hsignature, hread])⟩
          · exact .inr ⟨hmisread, hnone, .inr (by simp [parseTransferLog, hsignature, hread])⟩
        · left
          simp [parseTransferLog, readTransferLog, RawEvmLog.Mishandled, RawEvmLog.decode,
            hsignature, h1, h2, hstray1, hstray2, hok1, herror2, bind_ok, bind_error]
        · right
          simp [parseTransferLog, readTransferLog, RawEvmLog.Mishandled, RawEvmLog.decode,
            hsignature, h1, h2, hstray2, hok1, herror2, bind_ok, bind_error]
      · left
        simp [parseTransferLog, readTransferLog, RawEvmLog.Mishandled, RawEvmLog.decode,
          hsignature, h1, hstray1, herror1, bind_error]
      · right
        simp [parseTransferLog, readTransferLog, RawEvmLog.Mishandled, RawEvmLog.decode,
          hsignature, h1, hstray1, herror1, bind_error]
    · left
      simp [parseTransferLog, RawEvmLog.Mishandled, RawEvmLog.decode, hsignature]
  · exact .inl ⟨not_false, rfl⟩

theorem parseTransferLog_eq_decode_iff (log : RawEvmLog) :
    parseTransferLog log = .ok log.decode ↔ ¬log.Mishandled := by
  rcases parseTransferLog_cases log with ⟨hlog, hparse⟩ | ⟨hlog, hnone, hparse⟩
  · exact iff_of_true hparse hlog
  · refine iff_of_false ?_ (not_not.2 hlog)
    intro heq
    rw [heq, hnone] at hparse
    rcases hparse with ⟨e, he⟩ | ⟨t, ht⟩
    · cases he
    · cases ht

/-! ## Many logs -/

/-- A mishandled log adds a transfer to those of the standard. -/
theorem length_parseTransferLogs {logs : List RawEvmLog} {transfers : List ParsedTransfer}
    (h : parseTransferLogs logs = .ok transfers) :
    (logs.filterMap RawEvmLog.decode).length ≤ transfers.length ∧
      ((logs.filterMap RawEvmLog.decode).length = transfers.length →
        ∀ log ∈ logs, ¬log.Mishandled) := by
  induction logs generalizing transfers with
  | nil =>
    cases h
    simp
  | cons log logs ih =>
    obtain ⟨r, hr, h⟩ := bind_eq_ok.1 h
    obtain ⟨rest, hrest, h⟩ := bind_eq_ok.1 h
    cases h
    obtain ⟨hle, heq⟩ := ih hrest
    rcases parseTransferLog_cases log with ⟨hlog, hparse⟩ | ⟨hlog, hnone, hparse⟩
    · obtain rfl : r = log.decode := Except.ok.inj (hr.symm.trans hparse)
      cases hdecode : log.decode <;> simp_all
    · rw [hr] at hparse
      obtain ⟨t, rfl⟩ : ∃ t, r = some t := by simpa using hparse
      simp only [List.filterMap_cons, hnone, List.length_append, Option.toList_some,
        List.length_singleton]
      constructor <;> omega

theorem parseTransferLogs_eq_ok (logs : List RawEvmLog) :
    parseTransferLogs logs = .ok (logs.filterMap RawEvmLog.decode) ↔
      ∀ log ∈ logs, ¬log.Mishandled := by
  constructor
  · intro h
    exact (length_parseTransferLogs h).2 rfl
  · intro h
    induction logs with
    | nil => rfl
    | cons log logs ih =>
      have hlog := (parseTransferLog_eq_decode_iff log).2 (h log List.mem_cons_self)
      have hlogs := ih fun l hl => h l (List.mem_cons_of_mem _ hl)
      rw [parseTransferLogs, hlog, bind_ok, hlogs, bind_ok]
      cases hdecode : log.decode <;> rw [List.filterMap_cons, hdecode] <;> rfl

/-! ## Topics of addresses -/

theorem addressFromTopic_eq_ok :
    addressFromTopic topic = .ok address ↔ topicAddress topic = some address := by
  rcases addressFromTopic_cases topic with ⟨a, h, -, hok⟩ | ⟨h, -, message, herror⟩ |
    ⟨h, -, message, herror⟩
  · rw [h, hok, Except.ok.injEq, Option.some.injEq]
  · simp [h, herror]
  · simp [h, herror]

/-- The address read from the topic of a normalised address is the address. -/
theorem addressFromTopic_addressToTopic (h : normalizeEvmAddress address = .ok address) :
    ∃ topic, addressToTopic address = .ok topic ∧ addressFromTopic topic = .ok address := by
  obtain ⟨-, hvalid, hlower⟩ := normalizeEvmAddress_eq_ok h
  obtain ⟨body, hbody, hlength, hdigits⟩ := Hex.isWord_iff.1 hvalid
  refine ⟨_, by rw [addressToTopic, h]; rfl, addressFromTopic_eq_ok.2 ?_⟩
  have hstrip : stripHexPrefix (String.ofList ('0' :: 'x' :: addressPadding ++
      address.toList.drop 2)) = addressPadding ++ body := by
    rw [stripHexPrefix, String.toList_ofList, hbody]
    rfl
  have hall : body.all Hex.isDigit = true := List.all_eq_true.2 hdigits
  have hpadding : addressPadding.length = 24 := rfl
  have haddress : String.ofList ('0' :: 'x' :: body) = address := by
    rw [← hbody, String.ofList_toList]
  unfold topicAddress
  dsimp only
  rw [hstrip, List.take_left' hpadding, List.drop_left' hpadding, if_pos, haddress, hlower]
  simp [hlength, hpadding, all_addressPadding, hall]

/-- The topic of an address read from a topic is the topic, spelled with the prefix and in lower
case. -/
theorem addressToTopic_addressFromTopic (h : addressFromTopic topic = .ok address) :
    addressToTopic address =
      .ok (toLowerCase (String.ofList ('0' :: 'x' :: stripHexPrefix topic))) := by
  let word := String.ofList ('0' :: 'x' :: stripHexPrefix topic)
  have hstrip : stripHexPrefix word = stripHexPrefix topic := by
    rw [stripHexPrefix, String.toList_ofList]
    rfl
  have htopic := addressFromTopic_eq_ok.1 h
  have hsame : topicAddress word = topicAddress topic := by
    unfold topicAddress
    rw [hstrip]
  have hok : addressFromTopic word = .ok address :=
    addressFromTopic_eq_ok.2 (hsame.trans htopic)
  have hword : Hex.isWord 64 word.toList = true := by
    unfold topicAddress at htopic
    dsimp only at htopic
    split_ifs at htopic with hshape
    rw [String.toList_ofList]
    exact Hex.isWord_iff.2 ⟨_, rfl, hshape.1, List.all_eq_true.1 hshape.2.1⟩
  rcases addressFromTopic_word hword with ⟨message, herror⟩ | ⟨a, ha, hback⟩
  · rw [herror] at hok
    cases hok
  · obtain rfl := Except.ok.inj (ha.symm.trans hok)
    exact hback

/-! ## Exactness -/

/-- Logs are read as the standard reads them, alone and in a list, exactly when they are not
mishandled; and topics and addresses are inverse to each other. -/
theorem parseTransferLogs_exact (log : RawEvmLog) (logs : List RawEvmLog)
    (address topic : String) :
    (parseTransferLog log = .ok log.decode ↔ ¬log.Mishandled) ∧
    (parseTransferLogs logs = .ok (logs.filterMap RawEvmLog.decode) ↔
      ∀ log ∈ logs, ¬log.Mishandled) ∧
    (normalizeEvmAddress address = .ok address →
      ∃ topic, addressToTopic address = .ok topic ∧ addressFromTopic topic = .ok address) ∧
    (addressFromTopic topic = .ok address → addressToTopic address =
      .ok (toLowerCase (String.ofList ('0' :: 'x' :: stripHexPrefix topic)))) :=
  ⟨parseTransferLog_eq_decode_iff log, parseTransferLogs_eq_ok logs,
    addressFromTopic_addressToTopic, addressToTopic_addressFromTopic⟩

/-- A topic that ends in forty letters `z` behind the padding of an address. -/
def zTopic : String := String.ofList ('0' :: 'x' :: addressPadding ++ List.replicate 40 'z')

/-- The topic of the address whose digits are all `1`. -/
def onesTopic : String := String.ofList ('0' :: 'x' :: addressPadding ++ List.replicate 40 '1')

/-- A token contract that pays 100 units, with one word of data. -/
def wordLog : RawEvmLog :=
  ⟨"0x1111111111111111111111111111111111111111", [transferEventTopic, onesTopic, onesTopic],
    String.ofList ('0' :: 'x' :: List.replicate 62 '0' ++ ['6', '4']), 0⟩

def strayLog : RawEvmLog :=
  { wordLog with topics := [transferEventTopic, zTopic, onesTopic], logIndex := 1 }

/-- A log with a stray topic makes the parser throw, and the transfer beside it is lost; a log with
one byte of data is read as a transfer. -/
theorem parseTransferLogs_stray :
    (∃ e, parseTransferLog strayLog = .error e) ∧
    (∃ e, parseTransferLogs [wordLog, strayLog] = .error e) ∧
    (∃ t, parseTransferLogs [wordLog] = .ok [t] ∧ t.amount = 100) ∧
    ({ wordLog with data := "0x64" } : RawEvmLog).decode = none ∧
    ∃ t, parseTransferLog { wordLog with data := "0x64" } = .ok (some t) ∧ t.amount = 100 := by
  refine ⟨⟨_, rfl⟩, ⟨_, rfl⟩, ⟨_, rfl, rfl⟩, rfl, _, rfl, rfl⟩

end PaymentGateway
