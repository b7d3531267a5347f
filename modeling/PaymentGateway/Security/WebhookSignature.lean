import Mathlib.Algebra.Order.Ring.Abs
import Mathlib.Data.Rat.Cast.Order
import PaymentGateway.Lib.Hex
import PaymentGateway.Lib.Separated
import PaymentGateway.Lib.Utf8
import PaymentGateway.Shared.Units

/-!
# Webhook signatures

`signWebhook` puts the time into the text it signs, and `verifyWebhookSignature` reads the time and
any number of signatures back from the header.

**Theorem (`signatures_exact`).** A header of `signWebhook` verifies exactly when the times differ
by at most the tolerance, under the secret as the current one, and under any non-empty secret as
the previous one. Two headers that are accepted for a time and a body each are accepted for the same
time and the same body, unless they carry two different signatures of which one signs the first and
the other the second.

The signed text determines its time and its body, as a numeral has no full stop
(`buildSignedPayload_injective`). A header is accepted exactly when it is near in time and one of
its values is the signature of the body under a secret in use (`accepts_iff`), so each value stands
for at most one time and one body.
-/

namespace PaymentGateway

/-- HMAC-SHA256 of a message under a secret. -/
abbrev Hmac := String → List UInt8 → {digest : List UInt8 // digest.length = 32}

namespace WebhookSignature

variable (hmac : Hmac)

/-! ## Signing -/

def signatureVersion : String := "v1"

def defaultReplayWindowSeconds : ℚ := 300

structure SignedWebhook where
  signature : String
  timestamp : Nat
  signedPayload : List UInt8
  deriving DecidableEq, Repr

/-- The bytes of the signed text. The body is the bytes that are sent. -/
def buildSignedPayload (timestampSeconds : Nat) (rawBody : List UInt8) : List UInt8 :=
  Utf8.encode (timestampSeconds.repr.toList ++ ['.']) ++ rawBody

def computeSignature (secret : String) (signedPayload : List UInt8) : String :=
  String.ofList (Hex.ofBytes (hmac secret signedPayload))

/-- `clock` is the time in milliseconds. -/
def signWebhook (clock : Nat) (secret : String) (rawBody : List UInt8)
    (timestampSeconds : Nat := clock / 1000) : SignedWebhook :=
  let signedPayload := buildSignedPayload timestampSeconds rawBody
  let digest := computeSignature hmac secret signedPayload
  { signature := "t=" ++ timestampSeconds.repr ++ "," ++ signatureVersion ++ "=" ++ digest
    timestamp := timestampSeconds
    signedPayload := signedPayload }

/-! ## Verifying -/

structure VerifyOptions where
  toleranceSeconds : Option ℚ := none
  nowSeconds : Option Nat := none
  previousSecret : Option String := none

namespace VerifyOptions

def tolerance (options : VerifyOptions) : ℚ :=
  options.toleranceSeconds.getD defaultReplayWindowSeconds

def now (options : VerifyOptions) (clock : Nat) : Nat := options.nowSeconds.getD (clock / 1000)

/-- An empty previous secret is none. -/
def previous (options : VerifyOptions) : Option String := options.previousSecret.filter (· ≠ "")

end VerifyOptions

inductive VerifyFailureReason
  | malformedHeader
  | timestampOutOfRange
  | signatureMismatch
  deriving DecidableEq, Repr

inductive VerifyResult
  | valid (timestamp : Nat) (usedPreviousSecret : Bool)
  | invalid (reason : VerifyFailureReason)
  deriving DecidableEq, Repr

/-- What has been read of a header. -/
structure HeaderParts where
  timestamp : Option Nat
  signatures : List String
  deriving DecidableEq, Repr

structure ParsedHeader where
  timestamp : Nat
  signatures : List String
  deriving DecidableEq, Repr

/-- `^\d{1,15}$` -/
def timestampPattern (value : List Char) : Bool :=
  decide (1 ≤ value.length ∧ value.length ≤ 15) && value.all Char.isDigit

/-- `^[a-f0-9]{64}$` -/
def signaturePattern (value : List Char) : Bool :=
  decide (value.length = 64) && value.all Hex.isLowerDigit

/-- The loop's body. A timestamp that is none ends it. -/
def readPart (parts : HeaderParts) (part : String) : Option HeaderParts :=
  if '=' ∈ part.toList then
    let key := trim (part.toList.takeWhile (· ≠ '='))
    let value := trim ((part.toList.dropWhile (· ≠ '=')).drop 1)
    if key = ['t'] then
      if timestampPattern value = true then
        some { parts with timestamp := some (Nat.ofDigitChars 10 value 0) }
      else none
    else if key = signatureVersion.toList ∧ signaturePattern value = true then
      some { parts with signatures := parts.signatures ++ [String.ofList value] }
    else some parts
  else some parts

def parseSignatureHeader (header : String) : Option ParsedHeader :=
  if Utf16.length header.toList = 0 ∨ 1024 < Utf16.length header.toList then none
  else do
    let parts ← (Separated.fields ',' header).foldlM readPart ⟨none, []⟩
    let timestamp ← parts.timestamp
    if parts.signatures = [] then none else some ⟨timestamp, parts.signatures⟩

def safeEqualHex (a b : String) : Bool :=
  decide (Utf16.length a.toList = Utf16.length b.toList) &&
    decide (Hex.toBytes a.toList = Hex.toBytes b.toList)

def verifyWebhookSignature (clock : Nat) (secret : String) (rawBody : List UInt8)
    (signatureHeader : String) (options : VerifyOptions := {}) : VerifyResult :=
  match parseSignatureHeader signatureHeader with
  | none => .invalid .malformedHeader
  | some parsed =>
    if options.tolerance < |(options.now clock : ℚ) - parsed.timestamp| then
      .invalid .timestampOutOfRange
    else
      let signedPayload := buildSignedPayload parsed.timestamp rawBody
      let matchesUnder secret :=
        parsed.signatures.any (safeEqualHex · (computeSignature hmac secret signedPayload))
      if matchesUnder secret = true then .valid parsed.timestamp false
      else if options.previous.any matchesUnder = true then .valid parsed.timestamp true
      else .invalid .signatureMismatch

/-! ## The signed text -/

variable {hmac} {secret other value header : String} {timestamp timestamp' : Nat}
  {rawBody rawBody' : List UInt8}

theorem digit_of_mem_repr {c : Char} (h : c ∈ timestamp.repr.toList) : c.isDigit = true := by
  rw [Nat.toList_repr] at h
  exact Nat.isDigit_of_mem_toDigits (by decide) (by decide) h

theorem code_of_isDigit {c : Char} (h : c.isDigit = true) : 48 ≤ c.toNat ∧ c.toNat ≤ 57 :=
  Char.isDigit_iff_toNat.1 h

/-- The signed text determines its time and its body. -/
theorem buildSignedPayload_injective
    (h : buildSignedPayload timestamp rawBody = buildSignedPayload timestamp' rawBody') :
    timestamp = timestamp' ∧ rawBody = rawBody' := by
  have hsplit : ∀ timestamp rawBody, buildSignedPayload timestamp rawBody =
      Utf8.encode timestamp.repr.toList ++ 46 :: rawBody := by
    intro timestamp rawBody
    rw [buildSignedPayload, Utf8.encode_append, List.append_assoc]
    rfl
  have hfree : ∀ timestamp : Nat, (46 : UInt8) ∉ Utf8.encode timestamp.repr.toList := by
    intro timestamp hmem
    have hdigits : ∀ c ∈ timestamp.repr.toList, 48 ≤ c.toNat ∧ c.toNat ≤ 57 :=
      fun c hc => code_of_isDigit (digit_of_mem_repr hc)
    have hascii : ∀ c ∈ timestamp.repr.toList, c.toNat < 128 := by
      intro c hc
      have := hdigits c hc
      omega
    rw [Utf8.encode_ascii hascii] at hmem
    obtain ⟨c, hc, hcode⟩ := List.mem_map.1 hmem
    have hcode := congrArg UInt8.toNat hcode
    have := hdigits c hc
    rw [UInt8.toNat_ofNat'] at hcode
    have hstop : (46 : UInt8).toNat = 46 := rfl
    omega
  rw [hsplit, hsplit] at h
  obtain ⟨htime, hbody⟩ := Separated.append_left (hfree timestamp) (hfree timestamp') h
  exact ⟨Separated.repr_injective (String.toList_injective (Utf8.encode_injective htime)), hbody⟩

/-! ## Signatures -/

theorem toList_computeSignature (secret : String) (payload : List UInt8) :
    (computeSignature hmac secret payload).toList = Hex.ofBytes (hmac secret payload) :=
  String.toList_ofList

theorem signaturePattern_computeSignature (secret : String) (payload : List UInt8) :
    signaturePattern (computeSignature hmac secret payload).toList = true := by
  rw [toList_computeSignature, signaturePattern, Hex.length_ofBytes, (hmac secret payload).2,
    Bool.and_eq_true]
  exact ⟨rfl, List.all_eq_true.2 fun c => Hex.isLowerDigit_of_mem_ofBytes⟩

theorem computeSignature_injective {payload payload' : List UInt8}
    (h : computeSignature hmac secret payload = computeSignature hmac other payload') :
    hmac secret payload = hmac other payload' :=
  Subtype.ext (Hex.ofBytes_injective (String.ofList_injective h))

/-- On values of the header, the comparison of the bytes is equality. -/
theorem safeEqualHex_iff (h : signaturePattern value.toList = true) (payload : List UInt8) :
    safeEqualHex value (computeSignature hmac secret payload) = true ↔
      value = computeSignature hmac secret payload := by
  constructor
  · intro hequal
    rw [safeEqualHex, Bool.and_eq_true, decide_eq_true_eq, decide_eq_true_eq,
      toList_computeSignature, Hex.toBytes_ofBytes] at hequal
    rw [signaturePattern, Bool.and_eq_true, decide_eq_true_eq] at h
    have hvalue := Hex.ofBytes_toBytes (List.all_eq_true.1 h.2) (by rw [h.1])
    rw [hequal.2] at hvalue
    rw [computeSignature, hvalue, String.ofList_toList]
  · intro hequal
    rw [hequal, safeEqualHex, decide_eq_true rfl, decide_eq_true rfl]
    rfl

/-! ## Headers -/

theorem trim_of_forall {text : List Char} (h : ∀ c ∈ text, isWhiteSpace c = false) :
    trim text = text := by
  by_cases hne : text = []
  · rw [hne]
    rfl
  · exact (trim_eq_iff hne h).2 ⟨[], [], nofun, nofun, by simp⟩

/-- A part is cut at its first equals sign. -/
theorem cut_pair (key text : List Char) (h : '=' ∉ key) :
    (key ++ '=' :: text).takeWhile (· ≠ '=') = key ∧
      ((key ++ '=' :: text).dropWhile (· ≠ '=')).drop 1 = text := by
  have hkey : ∀ c ∈ key, decide (c ≠ '=') = true := by
    intro c hc
    exact decide_eq_true fun heq => h (heq ▸ hc)
  rw [List.takeWhile_append_of_pos hkey, List.dropWhile_append_of_pos hkey]
  simp

/-- `t=` and the time. -/
def timestampPart (text : List Char) : String := String.ofList (['t'] ++ '=' :: text)

/-- `v1=` and a signature. -/
def signaturePart (value : List Char) : String := String.ofList (['v', '1'] ++ '=' :: value)

theorem readPart_timestamp (parts : HeaderParts) {text : List Char}
    (h : timestampPattern text = true) :
    readPart parts (timestampPart text) =
      some { parts with timestamp := some (Nat.ofDigitChars 10 text 0) } := by
  have htrim : trim text = text := by
    refine trim_of_forall fun c hc => ?_
    rw [timestampPattern, Bool.and_eq_true] at h
    exact isWhiteSpace_of_isDigit (List.all_eq_true.1 h.2 c hc)
  obtain ⟨hkey, hvalue⟩ := cut_pair ['t'] text (by decide)
  have hspace : trim ['t'] = ['t'] := rfl
  unfold readPart timestampPart
  rw [String.toList_ofList, if_pos (by simp), hkey, hvalue, hspace, htrim]
  simp [h]

theorem isWhiteSpace_of_isLowerDigit {c : Char} (h : Hex.isLowerDigit c = true) :
    isWhiteSpace c = false := by
  rcases (Hex.isLowerDigit_iff c).1 h with hdigit | hletter
  · exact isWhiteSpace_of_isDigit (Char.isDigit_iff_toNat.2 hdigit)
  · have hne : ∀ n, n < 97 ∨ 102 < n → c.toNat ≠ n := by
      intro n hn
      omega
    have hlow : ¬8192 ≤ c.toNat := by omega
    simp [isWhiteSpace, hne, hlow]

theorem readPart_signature (parts : HeaderParts) {text : List Char}
    (h : signaturePattern text = true) :
    readPart parts (signaturePart text) =
      some { parts with signatures := parts.signatures ++ [String.ofList text] } := by
  have htrim : trim text = text := by
    refine trim_of_forall fun c hc => ?_
    rw [signaturePattern, Bool.and_eq_true] at h
    exact isWhiteSpace_of_isLowerDigit (List.all_eq_true.1 h.2 c hc)
  obtain ⟨hkey, hvalue⟩ := cut_pair ['v', '1'] text (by decide)
  have hspace : trim ['v', '1'] = ['v', '1'] := rfl
  have hversion : signatureVersion.toList = ['v', '1'] := rfl
  unfold readPart signaturePart
  rw [String.toList_ofList, if_pos (by simp), hkey, hvalue, hspace, htrim, hversion]
  simp [h]

theorem timestampPattern_iff {text : List Char} : timestampPattern text = true ↔
    (1 ≤ text.length ∧ text.length ≤ 15) ∧ ∀ c ∈ text, 48 ≤ c.toNat ∧ c.toNat ≤ 57 := by
  rw [timestampPattern, Bool.and_eq_true, decide_eq_true_eq, List.all_eq_true]
  exact and_congr_right fun _ => forall₂_congr fun c _ => Char.isDigit_iff_toNat

theorem signaturePattern_iff {text : List Char} : signaturePattern text = true ↔
    text.length = 64 ∧ ∀ c ∈ text, (48 ≤ c.toNat ∧ c.toNat ≤ 57) ∨
      (97 ≤ c.toNat ∧ c.toNat ≤ 102) := by
  rw [signaturePattern, Bool.and_eq_true, decide_eq_true_eq, List.all_eq_true]
  exact and_congr_right fun _ => forall₂_congr fun c _ => Hex.isLowerDigit_iff c

/-- The header with one time and these signatures. -/
def headerOf (text : List Char) (values : List (List Char)) : String :=
  Separated.join ',' (timestampPart text :: values.map signaturePart)

section headerOf

variable {text : List Char} {values : List (List Char)}

theorem fields_headerOf (htext : timestampPattern text = true)
    (hvalues : ∀ value ∈ values, signaturePattern value = true) :
    Separated.fields ',' (headerOf text values) =
      timestampPart text :: values.map signaturePart := by
  have hcomma : (','.toNat : Nat) = 44 := rfl
  have htime : ',' ∉ text := by
    intro hmem
    have := (timestampPattern_iff.1 htext).2 ',' hmem
    omega
  have hdigest : ∀ value ∈ values, ',' ∉ value := by
    intro value hvalue hmem
    have := (signaturePattern_iff.1 (hvalues value hvalue)).2 ',' hmem
    omega
  refine Separated.fields_join ?_ (List.cons_ne_nil _ _)
  simpa [timestampPart, signaturePart, htime] using hdigest

theorem utf16Length_headerOf (htext : timestampPattern text = true)
    (hvalues : ∀ value ∈ values, signaturePattern value = true) :
    Utf16.length (headerOf text values).toList = text.length + 2 + 68 * values.length := by
  have htime : Utf16.length text = text.length := by
    refine Utf16.length_eq fun c hc => ?_
    have := (timestampPattern_iff.1 htext).2 c hc
    omega
  have hjoin : ∀ first : String,
      Utf16.length (Separated.join ',' (first :: values.map signaturePart)).toList =
        Utf16.length first.toList + 68 * values.length := by
    induction values with
    | nil =>
      intro first
      rw [List.map_nil, Separated.join_singleton]
      rfl
    | cons value values ih =>
      intro first
      have hvalue := signaturePattern_iff.1 (hvalues value List.mem_cons_self)
      have hdigest : Utf16.length value = 64 := by
        rw [Utf16.length_eq fun c hc => ?_, hvalue.1]
        have := hvalue.2 c hc
        omega
      have hrest := ih (fun v hv => hvalues v (List.mem_cons_of_mem _ hv)) (signaturePart value)
      rw [List.map_cons, Separated.join_cons_cons, String.toList_append, Utf16.length_append,
        String.toList_append, Utf16.length_append, hrest]
      simp [signaturePart, hdigest]
      omega
  rw [headerOf, hjoin]
  simp [timestampPart, htime]
  omega

theorem foldlM_readPart (hvalues : ∀ value ∈ values, signaturePattern value = true)
    (parts : HeaderParts) :
    (values.map signaturePart).foldlM readPart parts =
      some { parts with signatures := parts.signatures ++ values.map String.ofList } := by
  induction values generalizing parts with
  | nil => simp
  | cons value values ih =>
    have hrest := ih fun v hv => hvalues v (List.mem_cons_of_mem _ hv)
    rw [List.map_cons, List.foldlM_cons, readPart_signature _ (hvalues value List.mem_cons_self)]
    simp [hrest]

theorem parse_headerOf (htext : timestampPattern text = true)
    (hvalues : ∀ value ∈ values, signaturePattern value = true) (hne : values ≠ [])
    (hlength : text.length + 2 + 68 * values.length ≤ 1024) :
    parseSignatureHeader (headerOf text values) =
      some ⟨Nat.ofDigitChars 10 text 0, values.map String.ofList⟩ := by
  rw [parseSignatureHeader, utf16Length_headerOf htext hvalues, if_neg (by omega),
    fields_headerOf htext hvalues, List.foldlM_cons, readPart_timestamp _ htext]
  simp [foldlM_readPart hvalues, hne]

end headerOf

/-- A header of `signWebhook` is read as its time and its one signature. -/
theorem parse_signWebhook (clock : Nat) (htimestamp : timestamp < 10 ^ 15) :
    parseSignatureHeader (signWebhook hmac clock secret rawBody timestamp).signature =
      some ⟨timestamp, [computeSignature hmac secret
        (buildSignedPayload timestamp rawBody)]⟩ := by
  let digest := computeSignature hmac secret (buildSignedPayload timestamp rawBody)
  have hheader : (signWebhook hmac clock secret rawBody timestamp).signature =
      headerOf timestamp.repr.toList [digest.toList] := by
    apply String.toList_injective
    rw [headerOf, List.map_singleton, Separated.join_cons_cons, Separated.join_singleton]
    simp [signWebhook, timestampPart, signaturePart, digest, signatureVersion]
  have htext : timestampPattern timestamp.repr.toList = true := by
    refine timestampPattern_iff.2 ⟨?_, fun c hc => code_of_isDigit (digit_of_mem_repr hc)⟩
    rw [String.length_toList]
    exact ⟨Nat.length_repr_pos, (Nat.length_repr_le_iff (by decide)).2 htimestamp⟩
  have hdigest : ∀ value ∈ [digest.toList], signaturePattern value = true := by
    intro value hvalue
    rw [List.mem_singleton.1 hvalue]
    exact signaturePattern_computeSignature _ _
  have hlength := (timestampPattern_iff.1 htext).1.2
  have hnumber : Nat.ofDigitChars 10 timestamp.repr.toList 0 = timestamp := by
    rw [Nat.toList_repr]
    exact Nat.ofDigitChars_ten_toDigits
  rw [hheader, parse_headerOf htext hdigest (List.cons_ne_nil _ _) (by
    rw [List.length_singleton]
    omega), hnumber, List.map_singleton, String.ofList_toList]

theorem readPart_signatures {parts parts' : HeaderParts} {part : String}
    (h : readPart parts part = some parts')
    (hparts : ∀ value ∈ parts.signatures, signaturePattern value.toList = true) :
    ∀ value ∈ parts'.signatures, signaturePattern value.toList = true := by
  unfold readPart at h
  dsimp only at h
  split_ifs at h with hequals hkey htimestamp hversion
  · cases h
    exact hparts
  · cases h
    intro value hvalue
    rcases List.mem_append.1 hvalue with hold | hnew
    · exact hparts value hold
    · rw [List.mem_singleton.1 hnew, String.toList_ofList]
      exact hversion.2
  · cases h
    exact hparts
  · cases h
    exact hparts

theorem foldlM_readPart_signatures {pieces : List String} {parts parts' : HeaderParts}
    (h : pieces.foldlM readPart parts = some parts')
    (hparts : ∀ value ∈ parts.signatures, signaturePattern value.toList = true) :
    ∀ value ∈ parts'.signatures, signaturePattern value.toList = true := by
  induction pieces generalizing parts with
  | nil =>
    cases h
    exact hparts
  | cons part pieces ih =>
    rw [List.foldlM_cons] at h
    obtain ⟨read, hread, hrest⟩ := Option.bind_eq_some_iff.1 h
    exact ih hrest (readPart_signatures hread hparts)

/-- The values of a parsed header are spelled as signatures. -/
theorem parsed_signatures {parsed : ParsedHeader} (h : parseSignatureHeader header = some parsed) :
    ∀ value ∈ parsed.signatures, signaturePattern value.toList = true := by
  unfold parseSignatureHeader at h
  split_ifs at h with hlength
  obtain ⟨parts, hparts, h⟩ := Option.bind_eq_some_iff.1 h
  obtain ⟨timestamp, -, h⟩ := Option.bind_eq_some_iff.1 h
  split_ifs at h with hempty
  cases h
  exact foldlM_readPart_signatures hparts nofun

/-! ## Acceptance -/

/-- The secrets that a verification tries. -/
def secretsInUse (secret : String) (options : VerifyOptions) : List String :=
  secret :: options.previous.toList

/-- The header is found valid for the body, with this time. -/
def Accepts (hmac : Hmac) (clock : Nat) (secret : String) (options : VerifyOptions)
    (header : String) (timestamp : Nat) (rawBody : List UInt8) : Prop :=
  ∃ usedPrevious, verifyWebhookSignature hmac clock secret rawBody header options =
    .valid timestamp usedPrevious

/-- A value is the signature of a time and a body under one of the secrets. -/
def SignedBy (hmac : Hmac) (secrets : List String) (timestamp : Nat) (rawBody : List UInt8)
    (value : String) : Prop :=
  ∃ secret ∈ secrets,
    value = computeSignature hmac secret (buildSignedPayload timestamp rawBody)

variable {clock : Nat} {options : VerifyOptions}

theorem any_safeEqualHex {signatures : List String}
    (h : ∀ value ∈ signatures, signaturePattern value.toList = true) (secret : String)
    (payload : List UInt8) :
    signatures.any (safeEqualHex · (computeSignature hmac secret payload)) = true ↔
      computeSignature hmac secret payload ∈ signatures := by
  rw [List.any_eq_true]
  constructor
  · rintro ⟨value, hvalue, hequal⟩
    rwa [← (safeEqualHex_iff (h value hvalue) payload).1 hequal]
  · intro hmem
    exact ⟨_, hmem, (safeEqualHex_iff (h _ hmem) payload).2 rfl⟩

theorem exists_signedBy_iff {signatures : List String} :
    (∃ value ∈ signatures, SignedBy hmac (secretsInUse secret options) timestamp rawBody value) ↔
      computeSignature hmac secret (buildSignedPayload timestamp rawBody) ∈ signatures ∨
      ∃ previous ∈ options.previous,
        computeSignature hmac previous (buildSignedPayload timestamp rawBody) ∈ signatures := by
  unfold SignedBy secretsInUse
  constructor
  · rintro ⟨value, hvalue, key, hkey, rfl⟩
    rcases List.mem_cons.1 hkey with rfl | hprevious
    · exact .inl hvalue
    · exact .inr ⟨key, Option.mem_toList.1 hprevious, hvalue⟩
  · rintro (hvalue | ⟨previous, hprevious, hvalue⟩)
    · exact ⟨_, hvalue, secret, List.mem_cons_self, rfl⟩
    · exact ⟨_, hvalue, previous, List.mem_cons_of_mem _ (Option.mem_toList.2 hprevious), rfl⟩

/-- What a header that parses is found to be. -/
theorem verify_cases {parsed : ParsedHeader} (hparse : parseSignatureHeader header = some parsed) :
    (options.tolerance < |(options.now clock : ℚ) - parsed.timestamp| ∧
      verifyWebhookSignature hmac clock secret rawBody header options =
        .invalid .timestampOutOfRange) ∨
    (|(options.now clock : ℚ) - parsed.timestamp| ≤ options.tolerance ∧
      (∃ value ∈ parsed.signatures,
        SignedBy hmac (secretsInUse secret options) parsed.timestamp rawBody value) ∧
      ∃ usedPrevious, verifyWebhookSignature hmac clock secret rawBody header options =
        .valid parsed.timestamp usedPrevious) ∨
    (¬(∃ value ∈ parsed.signatures,
        SignedBy hmac (secretsInUse secret options) parsed.timestamp rawBody value) ∧
      verifyWebhookSignature hmac clock secret rawBody header options =
        .invalid .signatureMismatch) := by
  have hany : ∀ secret payload,
      (parsed.signatures.any fun value =>
        safeEqualHex value (computeSignature hmac secret payload)) =
        decide (computeSignature hmac secret payload ∈ parsed.signatures) := by
    intro secret payload
    rw [Bool.eq_iff_iff, decide_eq_true_eq]
    exact any_safeEqualHex (parsed_signatures hparse) secret payload
  rw [exists_signedBy_iff]
  unfold verifyWebhookSignature
  rw [hparse]
  simp only [hany, decide_eq_true_eq]
  by_cases hfar : options.tolerance < |(options.now clock : ℚ) - parsed.timestamp|
  · exact .inl ⟨hfar, if_pos hfar⟩
  · rw [if_neg hfar]
    have hclose := not_lt.1 hfar
    by_cases hcurrent :
        computeSignature hmac secret (buildSignedPayload parsed.timestamp rawBody) ∈
          parsed.signatures
    · exact .inr (.inl ⟨hclose, .inl hcurrent, false, if_pos hcurrent⟩)
    · rw [if_neg hcurrent]
      cases hprevious : options.previous with
      | none => simp [hcurrent]
      | some previous =>
        by_cases hsigned :
            computeSignature hmac previous (buildSignedPayload parsed.timestamp rawBody) ∈
              parsed.signatures
        · simp [hsigned, hclose]
        · simp [hcurrent, hsigned]

/-- A header is accepted when it is near in time and one of its values signs the body. -/
theorem accepts_iff : Accepts hmac clock secret options header timestamp rawBody ↔
    ∃ parsed, parseSignatureHeader header = some parsed ∧ parsed.timestamp = timestamp ∧
      |(options.now clock : ℚ) - timestamp| ≤ options.tolerance ∧
      ∃ value ∈ parsed.signatures,
        SignedBy hmac (secretsInUse secret options) timestamp rawBody value := by
  unfold Accepts
  cases hparse : parseSignatureHeader header with
  | none => simp [verifyWebhookSignature, hparse]
  | some parsed =>
    constructor
    · intro ⟨usedPrevious, hvalid⟩
      rcases verify_cases hparse with ⟨-, hresult⟩ | ⟨hclose, hsigned, _, hresult⟩ | ⟨-, hresult⟩
      · cases hresult.symm.trans hvalid
      · cases hresult.symm.trans hvalid
        exact ⟨parsed, rfl, rfl, hclose, hsigned⟩
      · cases hresult.symm.trans hvalid
    · rintro ⟨found, hfound, rfl, hclose, hsigned⟩
      obtain rfl := Option.some.inj hfound
      rcases verify_cases hparse with ⟨hfar, -⟩ | ⟨-, -, hresult⟩ | ⟨hno, -⟩
      · exact absurd hclose (not_le.2 hfar)
      · exact hresult
      · exact absurd hsigned hno

/-- The signatures that a header carries. -/
def signaturesOf (header : String) : List String :=
  (parseSignatureHeader header).elim [] (·.signatures)

/-- No two of the messages have one digest, under whichever of the secrets. -/
def CollisionFree (hmac : Hmac) (secrets : List String) (messages : List (List UInt8)) : Prop :=
  ∀ secret ∈ secrets, ∀ other ∈ secrets, ∀ message ∈ messages, ∀ message' ∈ messages,
    hmac secret message = hmac other message' → message = message'

/-- One value signs at most one time and one body. -/
theorem SignedBy.unique {secrets secrets' : List String}
    (h : SignedBy hmac secrets timestamp rawBody value)
    (h' : SignedBy hmac secrets' timestamp' rawBody' value)
    (hfree : CollisionFree hmac (secrets ++ secrets')
      [buildSignedPayload timestamp rawBody, buildSignedPayload timestamp' rawBody']) :
    timestamp = timestamp' ∧ rawBody = rawBody' := by
  obtain ⟨secret, hsecret, rfl⟩ := h
  obtain ⟨other, hother, hsame⟩ := h'
  exact buildSignedPayload_injective (hfree secret (List.mem_append_left _ hsecret) other
    (List.mem_append_right _ hother) _ List.mem_cons_self _ (by simp)
    (computeSignature_injective hsame))

/-- A header of `signWebhook` verifies while it is near, under its secret as the current or as a
non-empty previous one; and what two headers are accepted for is the same, unless they carry two
different signatures for it. -/
theorem signatures_exact (hmac : Hmac) :
    (∀ secret rawBody timestamp signedAt, timestamp < 10 ^ 15 →
      let header := (signWebhook hmac signedAt secret rawBody timestamp).signature
      ∀ clock current options,
        current = secret ∨ options.previousSecret = some secret ∧ secret ≠ "" →
        ((∃ time, Accepts hmac clock current options header time rawBody) ↔
          |(options.now clock : ℚ) - timestamp| ≤ options.tolerance)) ∧
    ∀ clock clock' secret secret' options options' header header' timestamp timestamp' rawBody
      rawBody', Accepts hmac clock secret options header timestamp rawBody →
      Accepts hmac clock' secret' options' header' timestamp' rawBody' →
      CollisionFree hmac (secretsInUse secret options ++ secretsInUse secret' options')
        [buildSignedPayload timestamp rawBody, buildSignedPayload timestamp' rawBody'] →
      (timestamp = timestamp' ∧ rawBody = rawBody') ∨
        ∃ value ∈ signaturesOf header, ∃ value' ∈ signaturesOf header', value ≠ value' ∧
          SignedBy hmac (secretsInUse secret options) timestamp rawBody value ∧
          SignedBy hmac (secretsInUse secret' options') timestamp' rawBody' value' := by
  constructor
  · intro secret rawBody timestamp signedAt htimestamp header clock current options hsecret
    have hparse : parseSignatureHeader header =
        some ⟨timestamp, [computeSignature hmac secret (buildSignedPayload timestamp rawBody)]⟩ :=
      parse_signWebhook signedAt htimestamp
    have hinUse : secret ∈ secretsInUse current options := by
      rcases hsecret with rfl | ⟨hprevious, hne⟩
      · exact List.mem_cons_self
      · refine List.mem_cons_of_mem _ (Option.mem_toList.2 ?_)
        rw [VerifyOptions.previous, hprevious]
        simp [hne]
    constructor
    · rintro ⟨time, haccepts⟩
      obtain ⟨parsed, hparsed, rfl, hclose, -⟩ := accepts_iff.1 haccepts
      obtain rfl := Option.some.inj (hparse.symm.trans hparsed)
      exact hclose
    · intro hclose
      exact ⟨timestamp, accepts_iff.2 ⟨_, hparse, rfl, hclose, _, List.mem_cons_self, secret,
        hinUse, rfl⟩⟩
  · intro clock clock' secret secret' options options' header header' timestamp timestamp' rawBody
      rawBody' haccepts haccepts' hfree
    obtain ⟨parsed, hparse, -, -, value, hvalue, hsigned⟩ := accepts_iff.1 haccepts
    obtain ⟨parsed', hparse', -, -, value', hvalue', hsigned'⟩ := accepts_iff.1 haccepts'
    by_cases hsame : value = value'
    · subst hsame
      exact .inl (hsigned.unique hsigned' hfree)
    · refine .inr ⟨value, ?_, value', ?_, hsame, hsigned, hsigned'⟩
      · rw [signaturesOf, hparse]
        exact hvalue
      · rw [signaturesOf, hparse']
        exact hvalue'

theorem length_noDigest : (List.replicate 32 (0 : UInt8)).length = 32 := rfl

/-- A digest function that is right about one message under one secret. -/
def sampleHmac : Hmac := fun secret message =>
  if secret = "whsec" ∧ message = Utf8.encode "100.a".toList then
    ⟨[194, 166, 9, 169, 187, 52, 97, 26, 24, 133, 63, 197, 222, 58, 146, 145, 104, 77, 52, 140, 92,
      195, 65, 46, 180, 106, 107, 208, 227, 237, 212, 146], rfl⟩
  else ⟨List.replicate 32 0, length_noDigest⟩

/-- A body signed at 100 verifies at 400 and not at 401, and its header is accepted for nothing
else. -/
theorem signatures_exact_sample :
    let header := (signWebhook sampleHmac 0 "whsec" [97] 100).signature
    (∃ time, Accepts sampleHmac 400000 "whsec" {} header time [97]) ∧
    (¬∃ time, Accepts sampleHmac 401000 "whsec" {} header time [97]) ∧
    ∀ time body, Accepts sampleHmac 400000 "whsec" {} header time body →
      100 = time ∧ [97] = body := by
  intro header
  have hsigned := (signatures_exact sampleHmac).1 "whsec" [97] 100 0 (by decide)
  have hnear : |(VerifyOptions.now {} 400000 : ℚ) - (100 : Nat)| ≤ VerifyOptions.tolerance {} := by
    norm_num [VerifyOptions.now, VerifyOptions.tolerance, defaultReplayWindowSeconds]
  have hfar : ¬|(VerifyOptions.now {} 401000 : ℚ) - (100 : Nat)| ≤ VerifyOptions.tolerance {} := by
    norm_num [VerifyOptions.now, VerifyOptions.tolerance, defaultReplayWindowSeconds]
  have hparse : parseSignatureHeader header =
      some ⟨100, [computeSignature sampleHmac "whsec" (buildSignedPayload 100 [97])]⟩ :=
    parse_signWebhook 0 (by decide)
  have hsecrets : secretsInUse "whsec" {} = ["whsec"] := rfl
  have haccepts : Accepts sampleHmac 400000 "whsec" {} header 100 [97] := by
    obtain ⟨time, htime⟩ := (hsigned 400000 "whsec" {} (.inl rfl)).2 hnear
    obtain ⟨parsed, hparsed, rfl, -⟩ := accepts_iff.1 htime
    rw [hparse] at hparsed
    obtain rfl := Option.some.inj hparsed
    exact htime
  refine ⟨⟨100, haccepts⟩, fun h => hfar ((hsigned 401000 "whsec" {} (.inl rfl)).1 h), ?_⟩
  intro time body hother
  have hfree : CollisionFree sampleHmac (secretsInUse "whsec" {} ++ secretsInUse "whsec" {})
      [buildSignedPayload 100 [97], buildSignedPayload time body] := by
    have hreal : buildSignedPayload 100 [97] = Utf8.encode "100.a".toList := by decide
    simp only [CollisionFree, hsecrets, hreal, List.cons_append, List.nil_append, List.mem_cons,
      List.not_mem_nil, or_false, or_self, forall_eq_or_imp, forall_eq]
    by_cases hsame : buildSignedPayload time body = Utf8.encode "100.a".toList
    · simp [hsame]
    · have hzero : sampleHmac "whsec" (buildSignedPayload time body) =
          ⟨List.replicate 32 0, rfl⟩ := if_neg fun h => hsame h.2
      have hdiff : sampleHmac "whsec" (Utf8.encode "100.a".toList) ≠
          sampleHmac "whsec" (buildSignedPayload time body) := by
        rw [hzero]
        decide
      exact ⟨⟨fun _ => trivial, fun h => absurd h hdiff⟩, fun h => absurd h.symm hdiff,
        fun _ => trivial⟩
  rcases (signatures_exact sampleHmac).2 _ _ _ _ _ _ _ _ _ _ _ _ haccepts hother hfree with
    hsame | ⟨value, hvalue, value', hvalue', hne, -⟩
  · exact hsame
  · rw [signaturesOf, hparse] at hvalue hvalue'
    exact absurd ((List.mem_singleton.1 hvalue).trans (List.mem_singleton.1 hvalue').symm) hne

/-- A header may carry the signatures of two bodies. -/
theorem accepts_two_bodies (hmac : Hmac) :
    let sign := fun body => computeSignature hmac "whsec" (buildSignedPayload 100 body)
    let header := "t=100,v1=" ++ sign [97] ++ ",v1=" ++ sign [98]
    Accepts hmac 100000 "whsec" {} header 100 [97] ∧
      Accepts hmac 100000 "whsec" {} header 100 [98] := by
  let sign := fun body => computeSignature hmac "whsec" (buildSignedPayload 100 body)
  have hvalues : ∀ value ∈ [(sign [97]).toList, (sign [98]).toList],
      signaturePattern value = true := by
    intro value hvalue
    rcases List.mem_cons.1 hvalue with rfl | hvalue
    · exact signaturePattern_computeSignature _ _
    · rw [List.mem_singleton.1 hvalue]
      exact signaturePattern_computeSignature _ _
  have hheader : "t=100,v1=" ++ sign [97] ++ ",v1=" ++ sign [98] =
      headerOf ['1', '0', '0'] [(sign [97]).toList, (sign [98]).toList] := by
    apply String.toList_injective
    rw [headerOf, List.map_cons, List.map_singleton, Separated.join_cons_cons,
      Separated.join_cons_cons, Separated.join_singleton]
    simp [timestampPart, signaturePart]
  have htext : timestampPattern ['1', '0', '0'] = true := by decide
  have hparse : parseSignatureHeader ("t=100,v1=" ++ sign [97] ++ ",v1=" ++ sign [98]) =
      some ⟨100, [sign [97], sign [98]]⟩ := by
    rw [hheader, parse_headerOf htext hvalues (List.cons_ne_nil _ _) (by simp)]
    simp [Nat.ofDigitChars]
  have hnear : |(VerifyOptions.now {} 100000 : ℚ) - (100 : Nat)| ≤ VerifyOptions.tolerance {} := by
    norm_num [VerifyOptions.now, VerifyOptions.tolerance, defaultReplayWindowSeconds]
  refine ⟨accepts_iff.2 ?_, accepts_iff.2 ?_⟩
  · exact ⟨_, hparse, rfl, hnear, sign [97], by simp, "whsec", List.mem_cons_self, rfl⟩
  · exact ⟨_, hparse, rfl, hnear, sign [98], by simp, "whsec", List.mem_cons_self, rfl⟩

/-- A header with the signatures of two bodies is accepted for both; and an empty secret is never
tried as the previous one. -/
theorem signatures_two_bodies :
    (∀ hmac : Hmac,
      let sign := fun body => computeSignature hmac "whsec" (buildSignedPayload 100 body)
      let header := "t=100,v1=" ++ sign [97] ++ ",v1=" ++ sign [98]
      Accepts hmac 100000 "whsec" {} header 100 [97] ∧
        Accepts hmac 100000 "whsec" {} header 100 [98]) ∧
    ∀ hmac : Hmac,
      hmac "whsec" (buildSignedPayload 100 [97]) ≠ hmac "" (buildSignedPayload 100 [97]) →
      ¬∃ time, Accepts hmac 100000 "whsec" { previousSecret := some "" }
        (signWebhook hmac 100000 "" [97] 100).signature time [97] := by
  refine ⟨fun hmac => ?_, fun hmac => ?_⟩
  · exact accepts_two_bodies hmac
  · rintro hne ⟨time, haccepts⟩
    obtain ⟨parsed, hparsed, rfl, -, value, hvalue, key, hkey, hvalueEq⟩ := accepts_iff.1 haccepts
    rw [parse_signWebhook 100000 (by decide)] at hparsed
    obtain rfl := Option.some.inj hparsed
    obtain rfl := List.mem_singleton.1 hvalue
    have hsecrets : secretsInUse "whsec" { previousSecret := some "" } = ["whsec"] := rfl
    rw [hsecrets, List.mem_singleton] at hkey
    subst hkey
    exact hne (computeSignature_injective hvalueEq).symm

end WebhookSignature

end PaymentGateway
