import ExternalSignature.Entrypoint

/-!
# Challenges

A passkey signs a hash, of a byte string that one of three functions builds. `Challenge` is what
such a string stands for: the kind of operation and every field of it. The strings are encodings
of challenges (`PayloadCall.preimage_eq`), and different challenges have different encodings
(`Challenge.encode_inj`): the three kinds are separated by their tags, and the vectors of the
execute challenge by their counts.
-/

namespace ExternalSignature

open Lib Lib.Borsh

/-- What the owner of a passkey agrees to. -/
inductive Challenge where
  | init (slothash : ByteArr 32) (rentPayer : Pubkey) (sessionKey : Option SessionKey)
  | execute (slothash : ByteArr 32) (nonceSigner : Pubkey) (accounts : List AccountMeta)
      (instructions : SmallVec UInt8 CompiledInstruction)
  | refresh (slothash : ByteArr 32) (nonceSigner : Pubkey) (sessionKey : SessionKey)
  deriving DecidableEq

/-- The layout of an account in the execute challenge. -/
def AccountMeta.encode (m : AccountMeta) : Bytes :=
  m.pubkey.val ++ [m.isSigner.toUInt8, m.isWritable.toUInt8]

namespace Challenge

def slothash : Challenge → ByteArr 32
  | init h _ _ | execute h _ _ _ | refresh h _ _ => h

def signer : Challenge → Pubkey
  | init _ p _ | execute _ p _ _ | refresh _ p _ => p

/-- What is signed after the slot hash and the signer: a tag, then the fields of the kind. -/
def body : Challenge → Except IoError Bytes
  | init _ _ sessionKey => do
    return ascii "initialize_passkey" ++ match sessionKey with
      | none => []
      | some sessionKey => sessionKey.key.val ++ (Pod.bytes sessionKey.expiration).val
  | execute _ _ accounts instructions => do
    return ascii "execute_instructions" ++ (.ofNat accounts.length ::
      (accounts.flatMap AccountMeta.encode ++
        (.ofNat instructions.toList.length :: (← serializeItems instructions.toList))))
  | refresh _ _ sessionKey => do
    return ascii "refresh_session_key" ++ (← serialize sessionKey)

def encode (c : Challenge) : Except IoError Bytes := do
  return c.slothash.val ++ (c.signer.val ++ (← c.body))

/-- The account count fits its byte. -/
def Bounded : Challenge → Prop
  | execute _ _ accounts _ => accounts.length ≤ 255
  | _ => True

/-! ## Encodings are injective -/

theorem toUInt8_inj {a b : Bool} : a.toUInt8 = b.toUInt8 ↔ a = b := by
  cases a <;> cases b <;> decide

theorem length_encode_meta (m : AccountMeta) : m.encode.length = 34 := by
  simp [AccountMeta.encode, m.pubkey.property]

theorem encode_meta_inj {m n : AccountMeta} (h : m.encode = n.encode) : m = n := by
  obtain ⟨hk, hf⟩ := List.append_inj h (m.pubkey.property.trans n.pubkey.property.symm)
  simp only [List.cons.injEq, and_true, toUInt8_inj] at hf
  obtain ⟨k, w, s⟩ := m
  obtain ⟨k', w', s'⟩ := n
  cases Subtype.ext hk
  cases hf.1
  cases hf.2
  rfl

theorem flatMap_encode_inj {ms ns : List AccountMeta} {x y : Bytes} (hl : ms.length = ns.length)
    (h : ms.flatMap AccountMeta.encode ++ x = ns.flatMap AccountMeta.encode ++ y) :
    ms = ns ∧ x = y := by
  induction ms generalizing ns with
  | nil =>
    obtain rfl := List.length_eq_zero_iff.mp hl.symm
    exact ⟨rfl, h⟩
  | cons m ms ih =>
    match ns, hl with
    | n :: ns, hl =>
      simp only [List.flatMap_cons, List.append_assoc] at h
      obtain ⟨hm, h⟩ := List.append_inj h (by rw [length_encode_meta, length_encode_meta])
      obtain ⟨rfl, rfl⟩ := ih (by simpa using hl) h
      exact ⟨by rw [encode_meta_inj hm], rfl⟩

theorem ofNat_inj {m n : Nat} (hm : m ≤ 255) (hn : n ≤ 255) (h : UInt8.ofNat m = UInt8.ofNat n) :
    m = n := by
  have := congrArg UInt8.toNat h
  simp only [UInt8.toNat_ofNat'] at this
  omega

/-- The first byte of the tag separates the kinds. -/
def tagHead : Challenge → UInt8
  | init .. => 0x69
  | execute .. => 0x65
  | refresh .. => 0x72

theorem body_head {c : Challenge} {bs : Bytes} (h : c.body = .ok bs) :
    bs.head? = some c.tagHead := by
  cases c with
  | init _ _ k =>
    obtain rfl := pure_eq_ok.mp h
    rfl
  | execute =>
    obtain ⟨_, -, h⟩ := bind_eq_ok.mp h
    obtain rfl := pure_eq_ok.mp h
    rfl
  | refresh =>
    obtain ⟨_, -, h⟩ := bind_eq_ok.mp h
    obtain rfl := pure_eq_ok.mp h
    rfl

theorem body_initialize_inj {s s' : ByteArr 32} {p p' : Pubkey} {k k' : Option SessionKey}
    {bs : Bytes} (h : (init s p k).body = .ok bs) (h' : (init s' p' k').body = .ok bs) :
    k = k' := by
  obtain rfl := pure_eq_ok.mp h
  have h' := List.append_cancel_left (pure_eq_ok.mp h')
  -- the session key is there or not by the length
  cases k with
  | none =>
    cases k' with
    | none => rfl
    | some k' => exact absurd (congrArg List.length h') (by simp [k'.key.property])
  | some k =>
    cases k' with
    | none => exact absurd (congrArg List.length h') (by simp [k.key.property]; omega)
    | some k' =>
      obtain ⟨hk, he⟩ := List.append_inj h' (k'.key.property.trans k.key.property.symm)
      obtain ⟨key, expiration⟩ := k
      obtain ⟨key', expiration'⟩ := k'
      cases Subtype.ext hk
      cases Pod.bytes.injective (Subtype.ext he)
      rfl

theorem body_execute_inj {s s' : ByteArr 32} {p p' : Pubkey} {as as' : List AccountMeta}
    {is is' : SmallVec UInt8 CompiledInstruction} {bs : Bytes} (ha : as.length ≤ 255)
    (ha' : as'.length ≤ 255) (h : (execute s p as is).body = .ok bs)
    (h' : (execute s' p' as' is').body = .ok bs) : as = as' ∧ is = is' := by
  obtain ⟨x, hx, h⟩ := bind_eq_ok.mp h
  obtain ⟨y, hy, h'⟩ := bind_eq_ok.mp h'
  obtain rfl := pure_eq_ok.mp h
  obtain ⟨hn, haccounts⟩ := List.cons.inj (List.append_cancel_left (pure_eq_ok.mp h'))
  obtain ⟨rfl, hinstructions⟩ := flatMap_encode_inj (ofNat_inj ha' ha hn) haccounts
  obtain ⟨hm, rfl⟩ := List.cons.inj hinstructions
  have hl := ofNat_inj is'.length_u8 is.length_u8 hm
  exact ⟨rfl, SmallVec.ext (serializeItems_inj hl.symm hx hy)⟩

theorem encode_inj {c d : Challenge} {bs : Bytes} (hc : c.Bounded) (hd : d.Bounded)
    (h : c.encode = .ok bs) (h' : d.encode = .ok bs) : c = d := by
  obtain ⟨x, hx, h⟩ := bind_eq_ok.mp h
  obtain ⟨y, hy, h'⟩ := bind_eq_ok.mp h'
  obtain rfl := pure_eq_ok.mp h
  obtain ⟨hslothash, h'⟩ := List.append_inj (pure_eq_ok.mp h')
    (d.slothash.property.trans c.slothash.property.symm)
  obtain ⟨hsigner, rfl⟩ := List.append_inj h' (d.signer.property.trans c.signer.property.symm)
  have hs : d.slothash = c.slothash := Subtype.ext hslothash
  have hp : d.signer = c.signer := Subtype.ext hsigner
  clear h hslothash hsigner
  have head := (body_head hx).symm.trans (body_head hy)
  cases c <;> cases d <;> simp only [slothash, signer] at hs hp <;> subst hs hp
  case init.init => rw [body_initialize_inj hx hy]
  case execute.execute =>
    obtain ⟨rfl, rfl⟩ := body_execute_inj hc hd hx hy
    rfl
  case refresh.refresh =>
    obtain ⟨u, hu, hx⟩ := bind_eq_ok.mp hx
    obtain ⟨v, hv, hy⟩ := bind_eq_ok.mp hy
    obtain rfl := pure_eq_ok.mp hx
    obtain rfl := List.append_cancel_left (pure_eq_ok.mp hy)
    rw [serialize_inj hu hv]
  all_goals simp [tagHead] at head

theorem encode_total (c : Challenge) : ∃ bs, c.encode = .ok bs := by
  have hb : ∃ bs, c.body = .ok bs := by
    cases c with
    | init => exact ⟨_, rfl⟩
    | execute _ _ _ is =>
      obtain ⟨x, hx⟩ := serializeItems_total is.toList
      exact ⟨_, bind_eq_ok.mpr ⟨x, hx, rfl⟩⟩
    | refresh _ _ k =>
      obtain ⟨x, hx⟩ := LawfulBorsh.total k
      exact ⟨_, bind_eq_ok.mpr ⟨x, hx, rfl⟩⟩
  obtain ⟨x, hx⟩ := hb
  exact ⟨_, bind_eq_ok.mpr ⟨x, hx, rfl⟩⟩

end Challenge

/-! ## The three payloads -/

/-- A call of one of the functions that hash a payload. -/
inductive PayloadCall where
  | init (slothash : ByteArr 32) (rentPayer : Pubkey) (sessionKey : Option SessionKey)
  | execute (nonceData : NonceData) (accounts : List AccountInfo)
      (instructions : SmallVec UInt8 CompiledInstruction)
  | refresh (nonceData : NonceData) (sessionKey : SessionKey)

namespace PayloadCall

/-- The byte string the function hashes. -/
def preimage : PayloadCall → Outcome Bytes
  | init slothash rentPayer sessionKey =>
    return initializationPayload slothash rentPayer
      P256WebauthnAccountData.getInitializationPayload sessionKey
  | execute nonceData accounts instructions =>
    instructionPayload nonceData accounts instructions.toList
  | refresh nonceData sessionKey => refreshSessionKeyPayload nonceData sessionKey

/-- The fields of the call. -/
def challenge : PayloadCall → Challenge
  | init slothash rentPayer sessionKey => .init slothash rentPayer sessionKey
  | execute nonceData accounts instructions =>
    .execute nonceData.slothash nonceData.signerKey (accounts.map (·.toMeta)) instructions
  | refresh nonceData sessionKey => .refresh nonceData.slothash nonceData.signerKey sessionKey

/-- The functions hash the encodings of challenges. -/
theorem preimage_eq (call : PayloadCall) {bs : Bytes} :
    call.preimage = .ok bs ↔ call.challenge.encode = .ok bs := by
  cases call with
  | init _ _ sessionKey =>
    cases sessionKey <;>
      simp [preimage, challenge, Challenge.encode, Challenge.body, initializationPayload,
        Challenge.slothash, Challenge.signer, P256WebauthnAccountData.getInitializationPayload]
  | execute nonceData accounts instructions =>
    have hm : (accounts.map (·.toMeta)).flatMap AccountMeta.encode =
        accounts.flatMap accountPayload := by
      rw [List.flatMap_map]
      rfl
    simp only [preimage, challenge, Challenge.encode, Challenge.body, instructionPayload,
      Challenge.slothash, Challenge.signer, hm, List.length_map, List.append_assoc, bind_eq_ok,
      mapErr_eq_ok, pure_eq_ok, exists_exists_and_eq_and]
  | refresh nonceData sessionKey =>
    simp only [preimage, challenge, Challenge.encode, Challenge.body, refreshSessionKeyPayload,
      Challenge.slothash, Challenge.signer, List.append_assoc, bind_eq_ok, mapErr_eq_ok,
      pure_eq_ok, exists_exists_and_eq_and]

/-- The account lists that the entrypoint admits, and one more. -/
def Admitted : PayloadCall → Prop
  | execute _ accounts _ => accounts.length ≤ 255
  | _ => True

theorem Admitted.bounded {call : PayloadCall} (h : call.Admitted) : call.challenge.Bounded := by
  cases call with
  | execute => simpa [challenge, Challenge.Bounded, Admitted] using h
  | _ => trivial

end PayloadCall

/-- Every payload can be hashed, and two equal payloads are of one kind and agree on every
field. -/
theorem payloadCall_injective :
    (∀ call : PayloadCall, ∃ bs, call.preimage = .ok bs) ∧
    ∀ c d : PayloadCall, c.Admitted → d.Admitted → c.preimage = d.preimage →
      c.challenge = d.challenge := by
  have total : ∀ call : PayloadCall, ∃ bs, call.preimage = .ok bs := by
    intro call
    obtain ⟨bs, h⟩ := call.challenge.encode_total
    exact ⟨bs, call.preimage_eq.mpr h⟩
  refine ⟨total, fun c d hc hd h => ?_⟩
  obtain ⟨bs, hbs⟩ := total c
  exact Challenge.encode_inj hc.bounded hd.bounded (c.preimage_eq.mp hbs)
    (d.preimage_eq.mp (h.symm.trans hbs))

namespace Sample

/-- Two instructions on three accounts, of which the second holds `data` and belongs to `owner`. -/
def payloadCall (owner : Pubkey) (data : Bytes) : PayloadCall :=
  .execute ⟨slotHashesId, instructionsId⟩
    [⟨instructionsId, true, true, systemProgramId, []⟩, ⟨slotHashesId, false, true, owner, data⟩,
      ⟨ID, false, false, ID, [1, 2]⟩]
    ⟨[⟨2, ⟨[0, 1, 1], rfl⟩, ⟨[7, 8, 9], rfl⟩⟩, ⟨2, ⟨[1, 0], rfl⟩, ⟨[], rfl⟩⟩], rfl⟩

end Sample

/-- Account lists that differ only in what is not signed give one challenge. -/
theorem payloadCall_injective_accounts :
    (Sample.payloadCall ID [1]).challenge = (Sample.payloadCall systemProgramId []).challenge :=
  payloadCall_injective.2 _ _ (Nat.le_of_ble_eq_true rfl) (Nat.le_of_ble_eq_true rfl)
    (by simp [Sample.payloadCall, PayloadCall.preimage, instructionPayload, accountPayload])

end ExternalSignature
