import ExternalSignature.Proofs.Steps
import ExternalSignature.Solana

/-!
# Account integrity

Every account that the program accepts as one of its own was created by a successful
initialization: it sits at the address derived from the key stored in it, its relying party is
valid, and its identity never changes again (`Ledger.step_sound`, `Ledger.step_continues`). The
sessioned path relies on this, since it derives nothing from its arguments.
-/

namespace ExternalSignature

open Lib Lib.Borsh

variable {host : Host}

/-- What holds of the data of every initialized account. -/
structure P256WebauthnAccountData.WellFormed (host : Host) (key : Pubkey)
    (data : P256WebauthnAccountData) : Prop where
  derived : DerivesTo host data.publicKey key
  rpId : data.rpIdInfo.Valid host
  utf8 : isUtf8 (data.rpIdInfo.rpId.val.take data.rpIdInfo.rpIdLen.toNat)

theorem RpIdInformation.Valid.rpIdSlice_eq {info : RpIdInformation} (h : info.Valid host) :
    info.rpIdSlice = .ok (info.rpId.val.take info.rpIdLen.toNat) := by
  simp [rpIdSlice, slice, info.rpId.property, h.len_le]

/-- What an update of an initialized account keeps. -/
structure P256WebauthnAccountData.Continues (before after : P256WebauthnAccountData) : Prop where
  header : after.header = before.header
  rpIdInfo : after.rpIdInfo = before.rpIdInfo
  publicKey : after.publicKey = before.publicKey
  counter : before.counter ≤ after.counter

namespace P256WebauthnAccountData

theorem Continues.refl (data : P256WebauthnAccountData) : data.Continues data :=
  ⟨rfl, rfl, rfl, UInt64.le_refl _⟩

theorem Continues.trans {a b c : P256WebauthnAccountData} (h : a.Continues b)
    (h' : b.Continues c) : a.Continues c :=
  ⟨h'.header.trans h.header, h'.rpIdInfo.trans h.rpIdInfo, h'.publicKey.trans h.publicKey,
    UInt64.le_trans h.counter h'.counter⟩

theorem WellFormed.continues {key : Pubkey} {before after : P256WebauthnAccountData}
    (h : before.WellFormed host key) (hc : before.Continues after) : after.WellFormed host key :=
  ⟨hc.publicKey ▸ h.derived, hc.rpIdInfo ▸ h.rpId, hc.rpIdInfo ▸ h.utf8⟩

end P256WebauthnAccountData

theorem Verification.continues {before after : P256WebauthnAccountData} {ixs : Instructions}
    {params : ClientDataJsonReconstructionParams} {payload : Bytes}
    (v : Verification host before ixs params payload after) : before.Continues after :=
  ⟨v.after_fields.1, v.after_fields.2.1, v.after_fields.2.2.1, v.counter_le⟩

/-- A zero-filled account has no header. -/
theorem not_initialized_replicate (n : Nat) (data : P256WebauthnAccountData) :
    ¬Initialized (List.replicate n 0) data := by
  rintro ⟨hr, hv, -⟩
  obtain ⟨rest, hb⟩ := Pod.read_eq_some.mp (read_header hr)
  have hmem : data.header.version ∈ List.replicate n (0 : UInt8) := by
    rw [hb]
    exact List.mem_cons_self
  rw [hv] at hmem
  exact absurd (List.eq_of_mem_replicate hmem) (by decide)

/-! ## One step -/

/-- The accounts of a call are those of the ledger. -/
theorem Call.info_of_head {l : Ledger} {c : Call} {info : AccountInfo} {rest : List AccountInfo}
    (h : c.infos l = info :: rest) :
    info.owner = (l info.key).owner ∧ info.data = (l info.key).data := by
  have hmem : info ∈ c.infos l := h ▸ List.mem_cons_self
  obtain ⟨m, -, rfl⟩ := List.mem_map.mp (List.mem_of_mem_take hmem)
  exact ⟨rfl, rfl⟩

/-- A successful call creates a well-formed account or continues one. -/
theorem Success.effect {l : Ledger} {c : Call} {left : AccountInfo}
    (h : Success host c.rt (c.infos l) c.data left) :
    left.owner = ID ∧
    ((l left.key).owner ≠ ID ∧
        (∃ data, Initialized left.data data ∧ data.WellFormed host left.key) ∨
      ∃ before after, l.Holds left.key before ∧ Initialized left.data after ∧
        before.Continues after) := by
  generalize c.data = ixData at h
  cases h with
  | init run =>
    have hmem := Call.info_of_head run.accounts_eq
    have hi := run.initialized.write run.acceptance.verification.after_fields.1
    have hc := run.acceptance.verification.continues
    rw [run.left_eq]
    refine ⟨rfl, .inl ⟨?_, run.after, hi, ?_⟩⟩
    · rw [← hmem.1, run.uninitialized.1]
      exact id_ne_system.symm
    · exact P256WebauthnAccountData.WellFormed.continues
        ⟨run.derived, run.rpId_valid, run.acceptance.verification.rpId_valid.2⟩ hc
  | execute run =>
    have hmem := Call.info_of_head run.accounts_eq
    refine ⟨run.owner, .inr ⟨run.before, run.after, ⟨?_, ?_⟩, ?_, ?_⟩⟩
    · exact hmem.1.symm.trans run.owner
    · exact hmem.2 ▸ run.initialized
    · exact run.initialized.write run.acceptance.verification.after_fields.1
    · exact run.acceptance.verification.continues
  | refresh run =>
    have hmem := Call.info_of_head run.accounts_eq
    have hc := run.acceptance.verification.continues
    have hafter : run.before.Continues run.after := by
      rw [run.after_eq]
      exact ⟨hc.header, hc.rpIdInfo, hc.publicKey, hc.counter⟩
    rw [run.left_eq]
    refine ⟨run.owner, .inr ⟨run.before, run.after, ⟨?_, ?_⟩, ?_, hafter⟩⟩
    · exact hmem.1.symm.trans run.owner
    · exact hmem.2 ▸ run.initialized
    · exact run.initialized.write hafter.header
  | sessioned run =>
    have hmem := Call.info_of_head run.accounts_eq
    refine ⟨run.owner, .inr ⟨run.stored, run.stored, ⟨?_, ?_⟩, run.initialized, .refl _⟩⟩
    · exact hmem.1.symm.trans run.owner
    · exact hmem.2 ▸ run.initialized

namespace Ledger

/-- Every initialized account is well-formed. -/
def Sound (host : Host) (l : Ledger) : Prop :=
  ∀ key data, l.Holds key data → data.WellFormed host key

/-- Every initialized account of `l` is still there in `l'`, with its identity. -/
def Continues (l l' : Ledger) : Prop :=
  ∀ key before, l.Holds key before → ∃ after, l'.Holds key after ∧ before.Continues after

theorem Fresh.sound {l : Ledger} (h : l.Fresh) : l.Sound host :=
  fun key _ hd => absurd hd.1 (h key)

theorem holds_update_self {l : Ledger} {key : Pubkey} {account : Account}
    {data : P256WebauthnAccountData} :
    Holds (Function.update l key account) key data ↔
      account.owner = ID ∧ Initialized account.data data := by
  simp [Holds]

theorem holds_update_of_ne {l : Ledger} {key key' : Pubkey} {account : Account}
    {data : P256WebauthnAccountData} (h : key' ≠ key) :
    Holds (Function.update l key account) key' data ↔ l.Holds key' data := by
  simp [Holds, Function.update_of_ne h]

theorem step_sound (l : Ledger) (e : Event) (h : l.Sound host) : (l.step host e).Sound host := by
  obtain hs | ⟨c, left, -, hp, hs⟩ | ⟨key, size, -, -, hs⟩ | ⟨key, account, -, -, ha, hs⟩ :=
    l.step_cases host e
  all_goals
    rw [hs]
    intro k data hd
  · exact h k data hd
  · by_cases hk : k = left.key
    · subst hk
      have hd := (holds_update_self.mp hd).2
      obtain ⟨-, ⟨-, d, hi, hw⟩ | ⟨before, after, hb, hi, hc⟩⟩ := (Call.process_ok hp).effect
      · exact hd.unique hi ▸ hw
      · exact hd.unique hi ▸ (h _ before hb).continues hc
    · exact h k data ((holds_update_of_ne hk).mp hd)
  · by_cases hk : k = key
    · subst hk
      exact absurd (holds_update_self.mp hd).2 (not_initialized_replicate size data)
    · exact h k data ((holds_update_of_ne hk).mp hd)
  · by_cases hk : k = key
    · subst hk
      exact absurd (holds_update_self.mp hd).1 ha
    · exact h k data ((holds_update_of_ne hk).mp hd)

theorem Continues.refl (l : Ledger) : l.Continues l := fun _ before h => ⟨before, h, .refl _⟩

theorem Continues.trans {l₁ l₂ l₃ : Ledger} (h : l₁.Continues l₂) (h' : l₂.Continues l₃) :
    l₁.Continues l₃ := by
  intro key before hb
  obtain ⟨mid, hm, hbm⟩ := h key before hb
  obtain ⟨after, ha, hma⟩ := h' key mid hm
  exact ⟨after, ha, hbm.trans hma⟩

/-- An update of an account that the program does not own continues the ledger. -/
theorem continues_update {l : Ledger} {key : Pubkey} (account : Account)
    (h : (l key).owner ≠ ID) : l.Continues (Function.update l key account) := by
  intro k before hb
  have hk : k ≠ key := fun hk => h (hk ▸ hb.1)
  exact ⟨before, (holds_update_of_ne hk).mpr hb, .refl _⟩

theorem step_continues (l : Ledger) (e : Event) : l.Continues (l.step host e) := by
  obtain hs | ⟨c, left, -, hp, hs⟩ | ⟨key, size, -, hk, hs⟩ | ⟨key, account, -, hk, -, hs⟩ :=
    l.step_cases host e
  all_goals rw [hs]
  · exact .refl l
  · obtain ⟨howner, ⟨hne, -⟩ | ⟨before, after, hb, hi, hc⟩⟩ := (Call.process_ok hp).effect
    · exact continues_update _ hne
    · intro k d hd
      by_cases hk : k = left.key
      · subst hk
        obtain rfl := hd.unique hb
        exact ⟨after, holds_update_self.mpr ⟨howner, hi⟩, hc⟩
      · exact ⟨d, (holds_update_of_ne hk).mpr hd, .refl _⟩
  · exact continues_update _ hk
  · exact continues_update _ hk

/-! ## Whole runs -/

theorem run_sound {l : Ledger} (h : l.Sound host) (es : List Event) :
    Sound host (run (step host) l es) :=
  run_invariant (fun l e => step_sound l e) h es

theorem Reachable.sound {l : Ledger} (h : Reachable host l) : l.Sound host := by
  obtain ⟨start, es, hstart, rfl⟩ := h
  exact run_sound hstart.sound es

theorem run_continues (host : Host) (l : Ledger) (es : List Event) :
    l.Continues (run (step host) l es) :=
  run_rel (p := fun _ => True) Continues.refl (fun _ _ _ => Continues.trans) (fun _ _ _ => trivial)
    (fun l e _ => step_continues l e) trivial es

end Ledger

/-- In every reachable state, an account that passes `load` and the header check sits at the
address derived from its key, has a valid relying party, and keeps both in every later state. -/
theorem account_integrity {l : Ledger} (hl : l.Reachable host) (m : AccountMeta)
    {account : ExternallySignedAccount} {data : P256WebauthnAccountData}
    (hload : ExternallySignedAccount.load (l.info m) = .ok account)
    (hdata : account.dataRef = .ok data) :
    (∃ seeds, data.deriveExistingAccount host = .ok seeds ∧ seeds.key = m.pubkey) ∧
    data.rpIdInfo.rpIdLen ≤ 32 ∧
    (∃ rpId, data.rpIdInfo.rpIdSlice = .ok rpId ∧ isUtf8 rpId ∧ 0x22 ∉ rpId ∧
      data.rpIdInfo.rpIdHash = host.sha256 rpId) ∧
    ∀ es : List Event, ∃ account' data',
      ExternallySignedAccount.load ((run (Ledger.step host) l es).info m) = .ok account' ∧
      account'.dataRef = .ok data' ∧ data'.header = data.header ∧
      data'.rpIdInfo = data.rpIdInfo ∧ data'.publicKey = data.publicKey := by
  have hh : l.Holds m.pubkey data := Ledger.holds_iff.mpr ⟨account, hload, hdata⟩
  have hw := hl.sound _ _ hh
  refine ⟨?_, UInt8.le_iff_toNat_le.mpr hw.rpId.len_le, ⟨_, hw.rpId.rpIdSlice_eq, hw.utf8,
    hw.rpId.no_quote, hw.rpId.hash_eq⟩, fun es => ?_⟩
  · obtain ⟨bump, hf⟩ := hw.derived
    refine ⟨⟨m.pubkey, bump, ascii "passkey", host.sha256 data.publicKey.toBytes.val⟩, ?_, rfl⟩
    simp only [P256WebauthnAccountData.deriveExistingAccount,
      P256WebauthnAccountData.deriveAccount, bind_eq_ok, findProgramAddress_ok, pure_eq_ok]
    exact ⟨_, hf, rfl⟩
  · obtain ⟨data', hh', hc⟩ := Ledger.run_continues host l es _ _ hh
    obtain ⟨account', hl', hd'⟩ := Ledger.holds_iff.mp hh'
    exact ⟨account', data', hl', hd', hc.header, hc.rpIdInfo, hc.publicKey⟩

/-! ## A ledger with one account -/

namespace Sample

/-- The public key of the private key 1. -/
def passkey : ByteArr 33 :=
  .ofNat 33 0x036b17d1f2e12c4247f8bce6e563a440f277037d812deb33a0f4a13945d898c296

/-- The address of its external account. -/
def external : Pubkey :=
  .ofNat 32 0x92bbe581e5282cb321c75ad8183d3adf53f62103e4cd46be5b0f378c2bdf8779

def payer : Pubkey := ⟨List.replicate 32 0x11, rfl⟩
def sessionSigner : Pubkey := ⟨List.replicate 32 0x44, rfl⟩
def rpId : Bytes := ascii "example.com"

def rpIdHash : ByteArr 32 :=
  .ofNat 32 0xa379a6f6eeafb9a55e378c118034e2751e682fab9f2d30ab13d2125586ce1947

/-- A precompile instruction with the signature `(r, s)`, and a user who is present. -/
def precompile (publicKey : ByteArr 33) (r s : Nat) (signCount clientDataHash : Nat) :
    IntrospectedInstruction where
  programId := secp256r1PrecompileId
  data := [1, 0] ++ (Pod.bytes (SignatureOffsets.mk 16 0xffff 80 0xffff 113 69 0xffff)).val ++
    ((ByteArr.ofNat 32 r).val ++ (ByteArr.ofNat 32 s).val) ++ publicKey.val ++
    (rpIdHash.val ++ [5] ++ (ByteArr.ofNat 4 signCount).val ++ (ByteArr.ofNat 32 clientDataHash).val)
  address := 0
  beyond := []

/-- A runtime in which every invocation succeeds. -/
def runtime (unixTimestamp : Int64) (slotHashes : List SlotHash) (instructions : Instructions) :
    Runtime where
  unixTimestamp
  stackHeight := 1
  slotHashes
  instructions
  minimumBalance := fun _ => 0
  system := fun _ => .ok ()
  sliceInvokeSigned := fun _ _ => .ok ()

def slot : SlotHash := ⟨349863001, ⟨List.replicate 32 0x33, rfl⟩⟩

def encoded {α : Type} [BorshSerialize α] (a : α) : Bytes := (serialize a).toOption.getD []

def smallVec (bs : Bytes) : SmallVec UInt8 UInt8 := (SmallVec.tryFrom bs).toOption.getD ⟨[], rfl⟩

def initializationData : P256RawInitializationData := ⟨⟨rpId, by decide⟩, passkey, ⟨0x00, none⟩⟩

def initCall : Call where
  rt := runtime 1700000000 [slot] [precompile passkey
    0x4200b87c542fc675056ed112715b5766acc0ab1d8a669617b7fc7ff2dd622bec
    0x48e40c1e74847b58ea4fc425779625657ab9573dd5837e0d73395fda56701e8e
    0 0xfa1d703b2ef6e914f24021801ac339651d7f385c2f210c8f27ca9d8a544ca50d]
  accounts := [⟨external, true, false⟩, ⟨payer, true, true⟩, ⟨instructionsId, false, false⟩,
    ⟨slotHashesId, false, false⟩, ⟨systemProgramId, false, false⟩]
  data := 0 :: encoded (InitializeAccountArgs.mk ⟨1⟩ 0 (smallVec (encoded initializationData))
    (some ⟨sessionSigner, 3600⟩))

/-- What the call stores. -/
def stored : P256WebauthnAccountData where
  header := ⟨1, 0, .zero 2⟩
  rpIdInfo := ⟨11, ⟨rpId ++ List.replicate 21 0, rfl⟩, rpIdHash⟩
  publicKey := .new passkey
  padding := .zero 2
  sessionKey := ⟨sessionSigner, 3600⟩
  counter := 0

/-- The client data of `example.com` with a challenge in base64url. -/
def clientDataJson (type challenge : String) : Bytes :=
  ascii "\x7b\"type\":\"webauthn." ++ ascii type ++ ascii "\",\"challenge\":\"" ++ ascii challenge ++
    ascii "\",\"origin\":\"https://example.com\",\"crossOrigin\":false\x7d"

def passkeyHash : ByteArr 32 :=
  .ofNat 32 0x5baff89de7de5c1d7b6193a1567ceeeb397cbda88f03f725c8de328591bfc194

/-- What is hashed and derived to create the account. -/
def recorded : Recorded where
  digests := [(rpId, rpIdHash), (passkey.val, passkeyHash),
    (slot.hash.val ++ (payer.val ++ ascii "initialize_passkey") ++ sessionSigner.val ++
        leBytes 8 3600,
      .ofNat 32 0xa21f7228be765feb5c761eb26a5f36bf66763ad5c360df34512312bfef25beb2),
    (clientDataJson "create" "oh9yKL52X-tcdh6yal82v2Z2OtXDYN80USMSv-8lvrI",
      .ofNat 32 0xfa1d703b2ef6e914f24021801ac339651d7f385c2f210c8f27ca9d8a544ca50d)]
  addresses := [([ascii "passkey", passkeyHash.val], some (external, 255))]
  digests_eq := by
    simp only [List.forall_mem_cons, List.not_mem_nil, false_imp_iff, implies_true, and_true]
    refine ⟨?_, ?_, ?_, ?_⟩ <;> decide +kernel
  addresses_eq := by
    simp only [List.forall_mem_singleton]
    decide +kernel

def genesis : Ledger := fun _ => ⟨systemProgramId, []⟩

def ledger : Ledger := Function.update genesis external ⟨ID, (Pod.bytes stored).val⟩

theorem initCall_ok : (initCall.process .solana genesis).result =
    .ok ⟨external, false, true, ID, (Pod.bytes stored).val⟩ := by
  rw [← recorded.host_eq]
  decide +kernel

theorem step_initCall : genesis.step .solana (.call initCall) = ledger := by
  rw [Ledger.step_call_ok initCall_ok]
  rfl

theorem genesis_fresh : genesis.Fresh := fun _ => id_ne_system.symm

theorem ledger_reachable : ledger.Reachable .solana :=
  ⟨genesis, [.call initCall], genesis_fresh, by rw [run_cons, step_initCall, run_nil]⟩

theorem stored_initialized : Initialized (Pod.bytes stored).val stored := by
  refine ⟨?_, rfl, rfl⟩
  decide +kernel

theorem ledger_holds : ledger.Holds external stored :=
  Ledger.holds_update_self.mpr ⟨rfl, stored_initialized⟩

end Sample

theorem account_integrity_initialized :
    (∃ seeds, Sample.stored.deriveExistingAccount .solana = .ok seeds ∧
      seeds.key = Sample.external) ∧
    ∃ rpId, Sample.stored.rpIdInfo.rpIdSlice = .ok rpId ∧ isUtf8 rpId ∧ 0x22 ∉ rpId ∧
      Sample.stored.rpIdInfo.rpIdHash = Host.solana.sha256 rpId := by
  obtain ⟨_, hload, hdata⟩ :=
    Ledger.holds_iff (m := ⟨Sample.external, true, false⟩).mp Sample.ledger_holds
  have h := account_integrity Sample.ledger_reachable _ hload hdata
  exact ⟨h.1, h.2.2.1⟩

end ExternalSignature
