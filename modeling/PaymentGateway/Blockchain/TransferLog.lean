import PaymentGateway.Lib.Hex
import PaymentGateway.Blockchain.Adapter

/-!
# EVM addresses and transfer logs

Any log that carries the `Transfer` topic claims to be a transfer. `parseTransferLog` believes it
when its topics and its data have the standard's shape, and skips it otherwise. The helpers throw
two kinds of failure, of which the parser catches one: `ParseFailure.transferLog`.

A node reports topics and data as hexadecimal words (`ReportedLog`). On what a node reports the
uncaught failure does not occur (`parseTransferLog_reported`), the transfers are strictly
positive, and each keeps the index of its log (`parseTransferLog_eq_some`).
-/

namespace PaymentGateway

open Fallible

/-- What the parsing helpers throw. -/
inductive ParseFailure
  /-- `TransferLogParseError`. -/
  | transferLog (message : String)
  /-- A plain `Error`. -/
  | plain (message : String)
  deriving DecidableEq, Repr

/-! ## Addresses -/

def isStructurallyValidEvmAddress (address : String) : Bool := Hex.isWord 40 address.toList

/-- Canonical form used for all storage and comparison: lowercase. -/
def normalizeEvmAddress (address : String) : Except ParseFailure String :=
  if isStructurallyValidEvmAddress address then .ok (toLowerCase address)
  else .error (.plain ("not a structurally valid EVM address: " ++ address))

/-! ## Topics and data -/

/-- The standard's topic of `Transfer(address,address,uint256)`. -/
def transferEventTopic : String :=
  "0xddf252ad1be2c89b69c2b068fc378daa952ba7f163c4a11628f55a4df523b3ef"

structure RawEvmLog where
  /-- Contract that emitted the log. -/
  address : String
  topics : List String
  data : String
  logIndex : Nat
  deriving DecidableEq, Repr

def stripHexPrefix (value : String) : List Char :=
  match value.toList with
  | '0' :: 'x' :: body | '0' :: 'X' :: body => body
  | chars => chars

/-- The 24 zeros an address is padded with in a topic. -/
def addressPadding : List Char := List.replicate 24 '0'

/-- Left-pad an address to a topic, for building filters. -/
def addressToTopic (address : String) : Except ParseFailure String :=
  (normalizeEvmAddress address).map fun a =>
    String.ofList ('0' :: 'x' :: addressPadding ++ a.toList.drop 2)

def addressFromTopic (topic : String) : Except ParseFailure String :=
  let hex := stripHexPrefix topic
  if Utf16.length hex ≠ 64 then
    .error (.transferLog ("topic is not 32 bytes: " ++ topic))
  else if hex.take 24 ≠ addressPadding then
    .error (.transferLog ("topic has non-zero padding, not an address: " ++ topic))
  else
    normalizeEvmAddress (String.ofList ('0' :: 'x' :: hex.drop 24))

def amountFromData (data : String) : Except ParseFailure Nat :=
  let hex := stripHexPrefix data
  if hex.length = 0 then .error (.transferLog "empty log data")
  else if hex.length > 64 || !hex.all Hex.isDigit then
    .error (.transferLog ("malformed uint256 data: " ++ data))
  else .ok (Hex.value hex)

/-! ## Parsing -/

/-- The body of the parser, which may throw. A transfer of nothing is no transfer. -/
def readTransferLog (log : RawEvmLog) (topic1 topic2 : String) :
    Except ParseFailure (Option ParsedTransfer) := do
  let fromAddress ← addressFromTopic topic1
  let toAddress ← addressFromTopic topic2
  let amount ← amountFromData log.data
  if amount = 0 then
    return none
  else do
    let tokenContract ← normalizeEvmAddress log.address
    return some ⟨log.logIndex, some tokenContract, some fromAddress, toAddress, amount⟩

/-- Parse one log, or `none` when it is not a standard transfer. -/
def parseTransferLog (log : RawEvmLog) : Except ParseFailure (Option ParsedTransfer) :=
  match log.topics with
  | [topic0, topic1, topic2] =>
    if toLowerCase topic0 ≠ transferEventTopic then .ok none
    else
      match readTransferLog log topic1 topic2 with
      | .error (.transferLog _) => .ok none
      | result => result
  | _ => .ok none

def parseTransferLogs : List RawEvmLog → Except ParseFailure (List ParsedTransfer)
  | [] => .ok []
  | log :: logs => do
    let transfer ← parseTransferLog log
    let transfers ← parseTransferLogs logs
    return transfer.toList ++ transfers

def normalizeSender : Option String → Except ParseFailure (Option String)
  | none | some "" => .ok none
  | some address => (normalizeEvmAddress address).map some

/-- A native-coin transfer in the shape of a token log. Index -1 is no log's. -/
def nativeTransfer (fromAddress : Option String) (toAddress : String) (value : Int) :
    Except ParseFailure (Option ParsedTransfer) :=
  if value ≤ 0 then
    .ok none
  else do
    let source ← normalizeSender fromAddress
    let target ← normalizeEvmAddress toAddress
    return some ⟨-1, none, source, target, value⟩

/-! ## What a node reports -/

/-- A log as a node reports it: 32-byte topics, an address and data in hexadecimal. -/
structure ReportedLog extends RawEvmLog where
  address_valid : isStructurallyValidEvmAddress address = true
  topics_words : ∀ topic ∈ topics, Hex.isWord 64 topic.toList = true

@[simp] theorem toList_toLowerCase (s : String) :
    (toLowerCase s).toList = s.toList.map Char.toLower := by
  simp [toLowerCase]

@[simp] theorem toLowerCase_toLowerCase (s : String) :
    toLowerCase (toLowerCase s) = toLowerCase s := by
  rw [toLowerCase, toList_toLowerCase, Hex.map_toLower_toLower]
  rfl

theorem normalizeEvmAddress_of_valid {address : String}
    (h : isStructurallyValidEvmAddress address = true) :
    normalizeEvmAddress address = .ok (toLowerCase address) := by
  unfold normalizeEvmAddress
  rw [if_pos h]

theorem normalizeEvmAddress_eq_ok {address a : String} (h : normalizeEvmAddress address = .ok a) :
    a = toLowerCase address ∧ isStructurallyValidEvmAddress a = true ∧ toLowerCase a = a := by
  unfold normalizeEvmAddress at h
  split_ifs at h with hvalid
  cases h
  refine ⟨rfl, ?_, toLowerCase_toLowerCase address⟩
  unfold isStructurallyValidEvmAddress
  rw [toList_toLowerCase]
  exact Hex.isWord_map_toLower hvalid

theorem addressFromTopic_lower {topic address : String} (h : addressFromTopic topic = .ok address) :
    toLowerCase address = address := by
  unfold addressFromTopic at h
  dsimp only at h
  split_ifs at h
  exact (normalizeEvmAddress_eq_ok h).2.2

/-- A 32-byte topic holds an address or is refused as the parser expects. -/
theorem addressFromTopic_word {topic : String} (h : Hex.isWord 64 topic.toList = true) :
    (∃ message, addressFromTopic topic = .error (.transferLog message)) ∨
      ∃ address, addressFromTopic topic = .ok address ∧
        addressToTopic address = .ok (toLowerCase topic) := by
  obtain ⟨body, hbody, hlength, hdigits⟩ := Hex.isWord_iff.1 h
  have hstrip : stripHexPrefix topic = body := by
    unfold stripHexPrefix
    rw [hbody]
    rfl
  unfold addressFromTopic
  simp only [hstrip]
  rw [if_neg (not_not.2 ((Hex.utf16Length_digits hdigits).trans hlength))]
  split_ifs with hpadding
  · exact .inl ⟨_, rfl⟩
  · have hsplit : body = addressPadding ++ body.drop 24 := by
      rw [← not_not.1 hpadding, List.take_append_drop]
    have hlast : (String.ofList ('0' :: 'x' :: body.drop 24)).toList =
        '0' :: 'x' :: body.drop 24 := String.toList_ofList
    have hvalid : isStructurallyValidEvmAddress (String.ofList ('0' :: 'x' :: body.drop 24)) =
        true := by
      unfold isStructurallyValidEvmAddress
      rw [hlast]
      refine Hex.isWord_iff.2 ⟨_, rfl, ?_, fun c hc => hdigits c (List.mem_of_mem_drop hc)⟩
      rw [List.length_drop, hlength]
    have hnormal := normalizeEvmAddress_of_valid hvalid
    obtain ⟨-, hvalid', hlower⟩ := normalizeEvmAddress_eq_ok hnormal
    refine .inr ⟨_, hnormal, ?_⟩
    unfold addressToTopic
    rw [normalizeEvmAddress_of_valid hvalid', hlower]
    have htail : (toLowerCase (String.ofList ('0' :: 'x' :: body.drop 24))).toList.drop 2 =
        (body.drop 24).map Char.toLower := by
      rw [toList_toLowerCase, hlast]
      rfl
    show Except.ok (String.ofList _) = _
    rw [htail, toLowerCase, hbody]
    have hpad : addressPadding.map Char.toLower = addressPadding := by decide
    have hmap : body.map Char.toLower = addressPadding ++ (body.drop 24).map Char.toLower := by
      conv_lhs => rw [hsplit, List.map_append, hpad]
    rw [List.map_cons, List.map_cons, hmap]
    rfl

/-! ## What the parser returns -/

theorem amountFromData_error {data : String} {e : ParseFailure}
    (h : amountFromData data = .error e) : ∃ message, e = .transferLog message := by
  unfold amountFromData at h
  dsimp only at h
  split_ifs at h <;> cases h <;> exact ⟨_, rfl⟩

theorem readTransferLog_eq_some {log : RawEvmLog} {topic1 topic2 : String} {t : ParsedTransfer}
    (h : readTransferLog log topic1 topic2 = .ok (some t)) :
    t.transferIndex = log.logIndex ∧ 0 < t.amount ∧
      t.tokenContract = some (toLowerCase log.address) ∧
      addressFromTopic topic2 = .ok t.toAddress := by
  obtain ⟨source, -, h⟩ := bind_eq_ok.1 h
  obtain ⟨target, htarget, h⟩ := bind_eq_ok.1 h
  obtain ⟨amount, -, h⟩ := bind_eq_ok.1 h
  split_ifs at h with hzero
  · cases h
  · obtain ⟨contract, hcontract, h⟩ := bind_eq_ok.1 h
    cases h
    refine ⟨rfl, ?_, ?_, htarget⟩
    · exact Int.natCast_pos.2 (Nat.pos_of_ne_zero hzero)
    · rw [(normalizeEvmAddress_eq_ok hcontract).1]

/-- **A parsed transfer** is strictly positive, has the index of its log, and names what the log
names. -/
theorem parseTransferLog_eq_some {log : RawEvmLog} {t : ParsedTransfer}
    (h : parseTransferLog log = .ok (some t)) :
    t.transferIndex = log.logIndex ∧ 0 < t.amount ∧
      t.tokenContract = some (toLowerCase log.address) ∧
      ∃ topic0 topic1 topic2, log.topics = [topic0, topic1, topic2] ∧
        toLowerCase topic0 = transferEventTopic ∧ addressFromTopic topic2 = .ok t.toAddress := by
  unfold parseTransferLog at h
  split at h
  · next topic0 topic1 topic2 htopics =>
    split_ifs at h with htopic
    · cases h
    · have hread : readTransferLog log topic1 topic2 = .ok (some t) := by
        split at h
        · cases h
        · exact h
      obtain ⟨hindex, hamount, hcontract, haddress⟩ := readTransferLog_eq_some hread
      exact ⟨hindex, hamount, hcontract, topic0, topic1, topic2, htopics, not_not.1 htopic,
        haddress⟩
  · cases h

/-- On what a node reports the parser does not throw. -/
theorem parseTransferLog_reported (log : ReportedLog) :
    ∃ r, parseTransferLog log.toRawEvmLog = .ok r := by
  unfold parseTransferLog
  split
  · next topic0 topic1 topic2 htopics =>
    split_ifs
    · exact ⟨none, rfl⟩
    · have hword1 := addressFromTopic_word (log.topics_words topic1 (by rw [htopics]; simp))
      have hword2 := addressFromTopic_word (log.topics_words topic2 (by rw [htopics]; simp))
      have hread : (∃ r, readTransferLog log.toRawEvmLog topic1 topic2 = .ok r) ∨
          ∃ message, readTransferLog log.toRawEvmLog topic1 topic2 =
            .error (.transferLog message) := by
        unfold readTransferLog
        rcases hword1 with ⟨message, h1⟩ | ⟨source, h1, -⟩
        · exact .inr ⟨message, by rw [h1]; rfl⟩
        rw [h1, bind_ok]
        rcases hword2 with ⟨message, h2⟩ | ⟨target, h2, -⟩
        · exact .inr ⟨message, by rw [h2]; rfl⟩
        rw [h2, bind_ok]
        cases hamount : amountFromData log.data with
        | error e =>
          obtain ⟨message, rfl⟩ := amountFromData_error hamount
          exact .inr ⟨message, rfl⟩
        | ok amount =>
          rw [bind_ok]
          split_ifs
          · exact .inl ⟨none, rfl⟩
          · rw [normalizeEvmAddress_of_valid log.address_valid, bind_ok]
            exact .inl ⟨_, rfl⟩
      rcases hread with ⟨r, hr⟩ | ⟨message, hr⟩
      · exact ⟨r, by rw [hr]⟩
      · exact ⟨none, by rw [hr]⟩
  · exact ⟨none, rfl⟩

/-- The transfer a reported log stands for. -/
def ReportedLog.transfer (log : ReportedLog) : Option ParsedTransfer :=
  (parseTransferLog log.toRawEvmLog).toOption.join

theorem ReportedLog.transfer_eq_some {log : ReportedLog} {t : ParsedTransfer} :
    log.transfer = some t ↔ parseTransferLog log.toRawEvmLog = .ok (some t) := by
  obtain ⟨r, hr⟩ := parseTransferLog_reported log
  unfold ReportedLog.transfer
  rw [hr]
  show r = some t ↔ _
  rw [Except.ok.injEq]

theorem parseTransferLogs_reported (logs : List ReportedLog) :
    parseTransferLogs (logs.map (·.toRawEvmLog)) = .ok (logs.filterMap (·.transfer)) := by
  induction logs with
  | nil => rfl
  | cons log logs ih =>
    obtain ⟨r, hr⟩ := parseTransferLog_reported log
    have htransfer : log.transfer = r := by
      unfold ReportedLog.transfer
      rw [hr]
      rfl
    rw [List.map_cons, parseTransferLogs, hr, bind_ok, ih, bind_ok, List.filterMap_cons,
      htransfer]
    cases r <;> rfl

end PaymentGateway
