import ExternalSignature.Proofs.Authority

/-!
# Client data

The client data that the program hashes is never parsed. It can be read back all the same: its
type, its challenge and its origin stand between quotation marks and contain none
(`Fields.unique`). So a hash of client data stands for one challenge, whatever the parameters, and
for an origin of the relying party (`assertion_commits`).
-/

namespace ExternalSignature

open Lib

variable {host : Host} {rt : Runtime}

/-! ## Fields -/

/-- The leading fields of client data. -/
@[ext] structure Fields where
  type : Bytes
  challenge : Bytes
  origin : Bytes

namespace Fields

/-- The fields as client data spells them, with what follows. -/
def spell (f : Fields) (rest : Bytes) : Bytes :=
  ascii "\x7b\"type\":\"" ++ (f.type ++ 0x22 :: (ascii ",\"challenge\":\"" ++ (f.challenge ++
    0x22 :: (ascii ",\"origin\":\"" ++ (f.origin ++ 0x22 :: rest)))))

/-- The client data starts with the fields, which contain no quotation mark. -/
structure Lead (f : Fields) (json : Bytes) : Prop where
  type : 0x22 ∉ f.type
  challenge : 0x22 ∉ f.challenge
  origin : 0x22 ∉ f.origin
  spelled : ∃ rest, json = f.spell rest

theorem unique {f g : Fields} {json : Bytes} (hf : f.Lead json) (hg : g.Lead json) : f = g := by
  obtain ⟨x, hx⟩ := hf.spelled
  obtain ⟨y, hy⟩ := hg.spelled
  obtain ⟨ht, h⟩ := append_delimiter_inj hf.type hg.type (List.append_cancel_left (hx.symm.trans hy))
  obtain ⟨hc, h⟩ := append_delimiter_inj hf.challenge hg.challenge (List.append_cancel_left h)
  obtain ⟨ho, -⟩ := append_delimiter_inj hf.origin hg.origin (List.append_cancel_left h)
  exact Fields.ext ht hc ho

end Fields

/-! ## Reconstruction -/

namespace ClientDataJsonReconstructionParams

/-- `http(s)://rp_id[:port]`. -/
def origin (params : ClientDataJsonReconstructionParams) (rpId : Bytes) : Bytes :=
  (if params.isHttp then ascii "http://" else ascii "https://") ++ rpId ++
    match params.port with
    | some port => ascii ":" ++ ascii (Nat.repr port.toNat)
    | none => []

/-- The fields of the client data that is reconstructed. -/
def leading (params : ClientDataJsonReconstructionParams) (rpId challenge : Bytes) : Fields :=
  ⟨params.authType.str, Base64Url.encode challenge, params.origin rpId⟩

/-- What follows the quoted fields. -/
def trailing (params : ClientDataJsonReconstructionParams) : Bytes :=
  (if params.omitsCrossOrigin then []
    else ascii ",\"crossOrigin\":" ++
      (if params.isCrossOrigin then ascii "true" else ascii "false")) ++
  ((if params.hasGoogleExtra then
      ascii (",\"other_keys_can_be_added_here\":\"do not compare clientDataJSON against a " ++
        "template. See https://goo.gl/yabPex\"")
    else []) ++ ascii "\x7d")

theorem quote_notMem_origin (params : ClientDataJsonReconstructionParams) {rpId : Bytes}
    (h : 0x22 ∉ rpId) : 0x22 ∉ params.origin rpId := by
  have hscheme : 0x22 ∉ (if params.isHttp then ascii "http://" else ascii "https://") := by
    split <;> decide
  have hport : 0x22 ∉ (match params.port with
      | some port => ascii ":" ++ ascii (Nat.repr port.toNat)
      | none => []) := by
    split
    · rename_i port _
      intro hmem
      rcases List.mem_append.mp hmem with hmem | hmem
      · exact absurd hmem (by decide)
      · exact absurd (mem_ascii_repr hmem).1 (by decide)
    · exact List.not_mem_nil
  simp only [origin, List.mem_append, not_or]
  exact ⟨⟨hscheme, h⟩, hport⟩

end ClientDataJsonReconstructionParams

theorem AuthType.str_injective : Function.Injective AuthType.str := by
  intro t u h
  cases t <;> cases u
  · rfl
  · exact absurd h (by decide)
  · exact absurd h (by decide)
  · rfl

theorem reconstructClientDataJson_eq_ok {params : ClientDataJsonReconstructionParams}
    {rpId challenge json : Bytes} :
    reconstructClientDataJson params rpId challenge = .ok json ↔
      isUtf8 rpId ∧ json = (params.leading rpId challenge).spell params.trailing := by
  have hchallenge : ascii "\",\"challenge\":\"" = 0x22 :: ascii ",\"challenge\":\"" := by decide
  have horigin : ascii "\",\"origin\":\"" = 0x22 :: ascii ",\"origin\":\"" := by decide
  have hquote : ascii "\"" = [0x22] := by decide
  simp only [reconstructClientDataJson, bind_eq_ok, exists_unit, ensure_eq_ok, pure_eq_ok,
    Fields.spell, ClientDataJsonReconstructionParams.leading,
    ClientDataJsonReconstructionParams.origin, ClientDataJsonReconstructionParams.trailing,
    hchallenge, horigin, hquote]
  refine and_congr_right fun _ => ⟨fun h => h.symm.trans ?_, fun h => .trans ?_ h.symm⟩
  all_goals
    cases params.port <;>
      simp only [List.append_assoc, List.cons_append, List.nil_append, List.append_nil]

theorem reconstructClientDataJson_lead {params : ClientDataJsonReconstructionParams}
    {rpId challenge json : Bytes} (hrp : 0x22 ∉ rpId)
    (h : reconstructClientDataJson params rpId challenge = .ok json) :
    (params.leading rpId challenge).Lead json := by
  refine ⟨?_, Base64Url.quote_notMem_encode _, params.quote_notMem_origin hrp, _,
    (reconstructClientDataJson_eq_ok.mp h).2⟩
  show 0x22 ∉ params.authType.str
  cases params.authType <;> decide

/-- Equal client data is of one challenge, one type and one origin. -/
theorem reconstructClientDataJson_inj {p q : ClientDataJsonReconstructionParams}
    {r s c d json : Bytes} (hr : 0x22 ∉ r) (hs : 0x22 ∉ s)
    (hc : reconstructClientDataJson p r c = .ok json)
    (hd : reconstructClientDataJson q s d = .ok json) :
    c = d ∧ p.authType = q.authType ∧ p.origin r = q.origin s := by
  have h := Fields.unique (reconstructClientDataJson_lead hr hc)
    (reconstructClientDataJson_lead hs hd)
  exact ⟨Base64Url.encode_injective (congrArg Fields.challenge h),
    AuthType.str_injective (congrArg Fields.type h), congrArg Fields.origin h⟩

/-! ## Accepted assertions -/

/-- The relying party that is stored contains no quotation mark. -/
def RpIdInformation.Quoteless (info : RpIdInformation) : Prop :=
  ∀ rpId, info.rpIdSlice = .ok rpId → 0x22 ∉ rpId

/-- The client data that a verification hashes. -/
def P256WebauthnAccountData.clientData (self : P256WebauthnAccountData)
    (params : ClientDataJsonReconstructionParams) (payload : Bytes) : Outcome Bytes := do
  reconstructClientDataJson params (← self.rpIdInfo.rpIdSlice) payload

theorem Verification.clientData {before after : P256WebauthnAccountData} {ixs : Instructions}
    {params : ClientDataJsonReconstructionParams} {payload : Bytes}
    (v : Verification host before ixs params payload after) :
    before.clientData params payload = .ok v.json :=
  bind_eq_ok.mpr ⟨_, v.rpIdSlice, v.reconstructed⟩

theorem take_authData (signed : SignaturePayload) {bs : Bytes}
    (h : slice signed.authData 0 32 = .ok bs) : signed.message.take 32 = bs := by
  simp only [slice, SignaturePayload.authData, List.length_take, List.drop_zero] at h
  split at h
  · rename_i hle
    rw [← Except.ok.inj h, List.take_take]
    congr 1
    omega
  · cases h

/-- The message starts with the hash of the relying party. -/
theorem verifyPayload_rpIdHash {before after : P256WebauthnAccountData} {ixs : Instructions}
    {extra : P256ParsedVerificationData} {payload : Bytes} {signed : SignaturePayload}
    (h : before.verifyPayload host ixs extra payload = .ok after)
    (hsigned : ixs.signaturePayload = .ok signed) :
    signed.message.take 32 = before.rpIdInfo.rpIdHash.val := by
  simp only [P256WebauthnAccountData.verifyPayload, bind_eq_ok, ensure_eq_ok, exists_unit] at h
  obtain ⟨signed', hp, -, -, -, -, -, rpIdHash, hr, -, -, hhash, -⟩ := h
  obtain rfl := Except.ok.inj (hsigned.symm.trans hp)
  rw [take_authData signed hr, hhash]

section

variable {before before' after after' : P256WebauthnAccountData} {ixs ixs' : Instructions}
  {extra extra' : P256ParsedVerificationData} {payload payload' : Bytes}
  {signed signed' : SignaturePayload}

/-- One signed message is accepted for one payload. -/
theorem verifyPayload_unique (h : before.verifyPayload host ixs extra payload = .ok after)
    (h' : before'.verifyPayload host ixs' extra' payload' = .ok after')
    (hsigned : ixs.signaturePayload = .ok signed) (hsigned' : ixs'.signaturePayload = .ok signed')
    (hmessage : signed.message = signed'.message) (hq : before.rpIdInfo.Quoteless)
    (hq' : before'.rpIdInfo.Quoteless)
    (hfree : host.CollisionFreeOn
      ((before.clientData extra.clientDataJsonReconstructionParams payload).toOption.toList ++
        (before'.clientData extra'.clientDataJsonReconstructionParams payload').toOption.toList)) :
    payload = payload' := by
  obtain ⟨v⟩ := verifyPayload_ok h
  obtain ⟨v'⟩ := verifyPayload_ok h'
  obtain rfl := Except.ok.inj (hsigned.symm.trans v.presented)
  obtain rfl := Except.ok.inj (hsigned'.symm.trans v'.presented)
  have hhash : v.signed.clientDataHash = v'.signed.clientDataHash := by
    rw [SignaturePayload.clientDataHash, SignaturePayload.clientDataHash, hmessage]
  rw [v.clientData, v'.clientData] at hfree
  have hjson : v.json = v'.json := by
    refine hfree _ (by simp [Except.toOption]) _ (by simp [Except.toOption]) (Subtype.ext ?_)
    rw [v.clientDataHash, v'.clientDataHash, hhash]
  exact (reconstructClientDataJson_inj (hq _ v.rpIdSlice) (hq' _ v'.rpIdSlice) v.reconstructed
    (hjson ▸ v'.reconstructed)).1

/-- The hashed client data names an origin of the relying party that is stored. -/
theorem verifyPayload_origin (h : before.verifyPayload host ixs extra payload = .ok after)
    (hsigned : ixs.signaturePayload = .ok signed) (hq : before.rpIdInfo.Quoteless) :
    ∃ rpId json fields, before.rpIdInfo.rpIdSlice = .ok rpId ∧ Fields.Lead fields json ∧
      fields.challenge = Base64Url.encode payload ∧
      fields.origin = extra.clientDataJsonReconstructionParams.origin rpId ∧
      (host.sha256 json).val = signed.clientDataHash := by
  obtain ⟨v⟩ := verifyPayload_ok h
  obtain rfl := Except.ok.inj (hsigned.symm.trans v.presented)
  exact ⟨v.rpId, v.json, _, v.rpIdSlice,
    reconstructClientDataJson_lead (hq _ v.rpIdSlice) v.reconstructed, rfl, rfl, v.clientDataHash⟩

end

/-- Client data is of one challenge, type and origin; a signed message is accepted for one payload;
and then it names the relying party twice, in the origin of the client data and by its hash. -/
theorem assertion_commits (host : Host) :
    (∀ (p q : ClientDataJsonReconstructionParams) (r s c d json : Bytes), 0x22 ∉ r → 0x22 ∉ s →
      reconstructClientDataJson p r c = .ok json → reconstructClientDataJson q s d = .ok json →
        c = d ∧ p.authType = q.authType ∧ p.origin r = q.origin s) ∧
    (∀ (before before' after after' : P256WebauthnAccountData) (ixs ixs' : Instructions)
      (extra extra' : P256ParsedVerificationData) (payload payload' : Bytes)
      (signed signed' : SignaturePayload),
      before.verifyPayload host ixs extra payload = .ok after →
      before'.verifyPayload host ixs' extra' payload' = .ok after' →
      ixs.signaturePayload = .ok signed → ixs'.signaturePayload = .ok signed' →
      signed.message = signed'.message →
      before.rpIdInfo.Quoteless → before'.rpIdInfo.Quoteless →
      host.CollisionFreeOn
        ((before.clientData extra.clientDataJsonReconstructionParams payload).toOption.toList ++
          (before'.clientData extra'.clientDataJsonReconstructionParams
            payload').toOption.toList) →
        payload = payload') ∧
    (∀ (before after : P256WebauthnAccountData) (ixs : Instructions)
      (extra : P256ParsedVerificationData) (payload : Bytes) (signed : SignaturePayload),
      before.verifyPayload host ixs extra payload = .ok after →
      ixs.signaturePayload = .ok signed → before.rpIdInfo.Quoteless →
        (∃ rpId json fields, before.rpIdInfo.rpIdSlice = .ok rpId ∧ Fields.Lead fields json ∧
          fields.challenge = Base64Url.encode payload ∧
          fields.origin = extra.clientDataJsonReconstructionParams.origin rpId ∧
          (host.sha256 json).val = signed.clientDataHash) ∧
        signed.message.take 32 = before.rpIdInfo.rpIdHash.val) := by
  refine ⟨fun p q r s c d json hr hs hc hd => reconstructClientDataJson_inj hr hs hc hd, ?_, ?_⟩
  · intro before before' after after' ixs ixs' extra extra' payload payload' signed signed'
    exact verifyPayload_unique
  · intro before after ixs extra payload signed h hsigned hq
    exact ⟨verifyPayload_origin h hsigned hq, verifyPayload_rpIdHash h hsigned⟩

namespace Sample

/-- The payload that `executeSignature` signs. -/
def executePayload : Bytes :=
  (ByteArr.ofNat 32 0xf2cd437d6f64b54f592ca848a82758862580a3a563aea1e214fdeb9a15df1404).val

def executeExtra : P256ParsedVerificationData := ⟨.new passkey, ⟨0x10, none⟩⟩

/-- The account with a counter of 5, which a sign count of zero leaves as it is. -/
def fifth : P256WebauthnAccountData := { stored with counter := 5 }

theorem verifyPayload_stored : stored.verifyPayload .solana [executeSignature] executeExtra
    executePayload = .ok stored := by
  rw [← executeRecorded.host_eq]
  decide +kernel

theorem verifyPayload_fifth : fifth.verifyPayload .solana [executeSignature] executeExtra
    executePayload = .ok fifth := by
  rw [← executeRecorded.host_eq]
  decide +kernel

theorem stored_quoteless : stored.rpIdInfo.Quoteless := by
  intro rpId' h
  have hslice : stored.rpIdInfo.rpIdSlice = .ok rpId := by decide
  obtain rfl := Except.ok.inj (hslice.symm.trans h)
  decide

end Sample

theorem assertion_commits_stored :
    (ascii "hello" = ascii "hello" ∧ (ClientDataJsonReconstructionParams.mk 0x00 none).authType =
        (ClientDataJsonReconstructionParams.mk 0x20 none).authType ∧
      (ClientDataJsonReconstructionParams.mk 0x00 none).origin Sample.rpId =
        (ClientDataJsonReconstructionParams.mk 0x20 none).origin Sample.rpId) ∧
    Sample.executePayload = Sample.executePayload ∧
    ∃ signed, Instructions.signaturePayload [Sample.executeSignature] = .ok signed ∧
      signed.message.take 32 = Sample.stored.rpIdInfo.rpIdHash.val := by
  obtain ⟨v⟩ := verifyPayload_ok Sample.verifyPayload_stored
  have hq := Sample.stored_quoteless
  have h := assertion_commits .solana
  have hjson : reconstructClientDataJson ⟨0x20, none⟩ Sample.rpId (ascii "hello") =
      reconstructClientDataJson ⟨0x00, none⟩ Sample.rpId (ascii "hello") := by decide
  refine ⟨h.1 _ _ _ _ _ _ (Sample.clientDataJson "create" "aGVsbG8") (by decide) (by decide)
    (by decide) (by rw [hjson]; decide), ?_, v.signed, v.presented, ?_⟩
  · refine h.2.1 _ _ _ _ _ _ _ _ _ _ _ _ Sample.verifyPayload_stored Sample.verifyPayload_fifth
      v.presented v.presented rfl hq hq ?_
    -- the account with the other counter has the same client data
    intro x hx y hy _
    have hmem {z : Bytes} (hz : z ∈
        (Sample.stored.clientData Sample.executeExtra.clientDataJsonReconstructionParams
            Sample.executePayload).toOption.toList ++
          (Sample.fifth.clientData Sample.executeExtra.clientDataJsonReconstructionParams
            Sample.executePayload).toOption.toList) : z = v.json := by
      have hv : Sample.fifth.clientData Sample.executeExtra.clientDataJsonReconstructionParams
          Sample.executePayload = .ok v.json := v.clientData
      rw [v.clientData, hv] at hz
      simpa [Except.toOption] using hz
    rw [hmem hx, hmem hy]
  · exact (h.2.2 _ _ _ _ _ _ Sample.verifyPayload_stored v.presented hq).2

end ExternalSignature
