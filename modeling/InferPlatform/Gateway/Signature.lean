import InferPlatform.Base.Utf8
import InferPlatform.Gateway.ApiKeys

/-!
# The signature of a webhook

Stripe signs a time, a dot and the payload. The gateway takes the time from the header
as the text that is there, so it does not see where the time ends and the payload begins.

* `validateWebhookSignature` — `HMAC-SHA256` is a parameter;
* `bindsPayload_iff` — **two payloads accepted with one `v1` value are the same, and
  their `t` values too, exactly where the `t` values have the same length**;
* `not_bindsPayload_moved_dot` — a signature of one body, used for another.
-/

namespace InferPlatform.Gateway

/-! ## The header -/

/-- What the loop over the parts of the header finds. -/
structure SignatureParts where
  timestampStr : Option String
  signatures : List String
  deriving DecidableEq, Repr

/-- `part.strip_prefix(pre)`. -/
def stripPrefix (pre part : List Char) : Option String := (part.dropPrefix? pre).map String.ofList

/-- A later `t=` replaces an earlier one. -/
def readPart (parts : SignatureParts) (part : List Char) : SignatureParts :=
  match stripPrefix "t=".toList part with
  | some t => { parts with timestampStr := some t }
  | none =>
    match stripPrefix "v1=".toList part with
    | some v => { parts with signatures := parts.signatures ++ [v] }
    | none => parts

def readSigHeader (sigHeader : String) : SignatureParts :=
  (sigHeader.toList.splitOn ',').foldl readPart ⟨none, []⟩

section

/-! ## The check -/

variable (hmac : List UInt8 → List UInt8 → List UInt8)

/-- The bytes given to `mac.update`. -/
def macInput (ts : String) (payload : List UInt8) : List UInt8 :=
  Utf8.encode ts.toList ++ Utf8.encode ['.'] ++ payload

/-- A key of any length is accepted. -/
def expectedSignature (payload : List UInt8) (ts secret : String) : String :=
  hexEncode (hmac (Utf8.encode secret.toList) (macInput ts payload))

def validateWebhookSignature (payload : List UInt8) (sigHeader secret : String) :
    Except String Bool :=
  let parts := readSigHeader sigHeader
  match parts.timestampStr with
  | none => .error "missing t= in Stripe-Signature"
  | some ts =>
    if parts.signatures = [] then .error "no v1= signatures in Stripe-Signature"
    else .ok (parts.signatures.any fun s => s = expectedSignature hmac payload ts secret)

/-- The header is accepted, its time is `ts` and the signature that is right is `v1`. -/
structure AcceptedWith (secret : String) (payload : List UInt8) (sigHeader ts v1 : String) :
    Prop where
  valid : validateWebhookSignature hmac payload sigHeader secret = .ok true
  timestamp : (readSigHeader sigHeader).timestampStr = some ts
  listed : v1 ∈ (readSigHeader sigHeader).signatures
  right : v1 = expectedSignature hmac payload ts secret

instance (secret : String) (payload : List UInt8) (sigHeader ts v1 : String) :
    Decidable (AcceptedWith hmac secret payload sigHeader ts v1) :=
  decidable_of_iff
    (validateWebhookSignature hmac payload sigHeader secret = .ok true ∧
      (readSigHeader sigHeader).timestampStr = some ts ∧
      v1 ∈ (readSigHeader sigHeader).signatures ∧ v1 = expectedSignature hmac payload ts secret)
    ⟨fun ⟨h, h', h'', h'''⟩ => ⟨h, h', h'', h'''⟩,
      fun ⟨h, h', h'', h'''⟩ => ⟨h, h', h'', h'''⟩⟩

/-- What is accepted with one signature is one payload, at one time. -/
def BindsPayload (ts ts' : String) (payload payload' : List UInt8) : Prop :=
  payload = payload' ∧ ts = ts'

instance (ts ts' : String) (payload payload' : List UInt8) :
    Decidable (BindsPayload ts ts' payload payload') :=
  inferInstanceAs (Decidable (_ ∧ _))

/-- A header is accepted with one of its signatures. -/
theorem validateWebhookSignature_iff (secret : String) (payload : List UInt8)
    (sigHeader : String) :
    validateWebhookSignature hmac payload sigHeader secret = .ok true ↔
      ∃ ts v1, AcceptedWith hmac secret payload sigHeader ts v1 := by
  constructor
  · intro hvalid
    have h := hvalid
    unfold validateWebhookSignature at h
    dsimp only at h
    split at h
    · cases h
    · rename_i ts hts
      split at h
      · cases h
      · injection h with hany
        obtain ⟨v1, hlisted, hright⟩ := List.any_eq_true.mp hany
        exact ⟨ts, v1, hvalid, hts, hlisted, of_decide_eq_true hright⟩
  · rintro ⟨_, _, haccepted⟩
    exact haccepted.valid

/-! ## Where the time ends -/

theorem encode_toList_injective {ts ts' : String}
    (h : Utf8.encode ts.toList = Utf8.encode ts'.toList) : ts = ts' := by
  apply String.toList_injective
  rw [← Utf8.decode_encode ts.toList, h, Utf8.decode_encode]

/-- With times of one length, the bytes that are signed determine both parts. -/
theorem macInput_inj {ts ts' : String} {payload payload' : List UInt8}
    (hlength : (Utf8.encode ts.toList).length = (Utf8.encode ts'.toList).length)
    (h : macInput ts payload = macInput ts' payload') : payload = payload' ∧ ts = ts' := by
  rw [macInput, macInput, List.append_assoc, List.append_assoc] at h
  obtain ⟨hts, hrest⟩ := List.append_inj h hlength
  exact ⟨List.append_cancel_left hrest, encode_toList_injective hts⟩

/-- **A signature binds its payload where the times have one length, and only there.**
The hypothesis `hcollision` is about the two messages that are signed. -/
theorem bindsPayload_iff (secret : String) (payload payload' : List UInt8)
    (sigHeader sigHeader' ts ts' v1 : String)
    (haccepted : AcceptedWith hmac secret payload sigHeader ts v1)
    (haccepted' : AcceptedWith hmac secret payload' sigHeader' ts' v1)
    (hcollision : hmac (Utf8.encode secret.toList) (macInput ts payload) =
        hmac (Utf8.encode secret.toList) (macInput ts' payload') →
      macInput ts payload = macInput ts' payload') :
    BindsPayload ts ts' payload payload' ↔
      (Utf8.encode ts.toList).length = (Utf8.encode ts'.toList).length := by
  constructor
  · rintro ⟨-, rfl⟩
    rfl
  · intro hlength
    have hmac_eq := hexEncode_injective (haccepted.right.symm.trans haccepted'.right)
    exact macInput_inj hlength (hcollision hmac_eq)

end

/-! ## One signature -/

/-- `HMAC-SHA256` with the key `whsec_test`, on the message `1.2.3`. -/
def testMac (key message : List UInt8) : List UInt8 :=
  if key = Utf8.encode "whsec_test".toList ∧ message = Utf8.encode "1.2.3".toList then
    [200, 7, 239, 191, 107, 219, 113, 38, 95, 194, 33, 144, 255, 146, 59, 111,
      82, 28, 216, 134, 8, 129, 31, 245, 196, 70, 255, 110, 129, 246, 154, 58]
  else []

def testSignature : String := "c807efbf6bdb71265fc22190ff923b6f521cd88608811ff5c446ff6e81f69a3a"

/-- The parts of the header may stand in any order. -/
theorem bindsPayload_same_time :
    BindsPayload "1" "1" (Utf8.encode "2.3".toList) (Utf8.encode "2.3".toList) :=
  (bindsPayload_iff testMac "whsec_test" (Utf8.encode "2.3".toList) (Utf8.encode "2.3".toList)
    ("t=1,v1=" ++ testSignature) ("v1=" ++ testSignature ++ ",t=1") "1" "1" testSignature
    (by decide +kernel) (by decide +kernel) (fun _ => rfl)).mpr rfl

/-- The signature of the body `2.3` at the time `1` is accepted for the body `3`. -/
theorem not_bindsPayload_moved_dot :
    AcceptedWith testMac "whsec_test" (Utf8.encode "2.3".toList) ("t=1,v1=" ++ testSignature)
        "1" testSignature ∧
      AcceptedWith testMac "whsec_test" (Utf8.encode "3".toList) ("t=1.2,v1=" ++ testSignature)
        "1.2" testSignature ∧
      ¬ BindsPayload "1" "1.2" (Utf8.encode "2.3".toList) (Utf8.encode "3".toList) := by
  refine ⟨by decide +kernel, by decide +kernel, by decide +kernel⟩

end InferPlatform.Gateway
