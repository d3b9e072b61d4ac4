import ExternalSignature.Lib.Replay
import ExternalSignature.Proofs.Replay
import ExternalSignature.Proofs.Session

/-!
# Wallets

What an external account is to its owner: a wallet that a passkey controls, with the session it has
opened. A wallet knows nothing of instructions, sysvars or account data. It takes messages of its
passkey, each for a challenge, and refuses those of another key, those of another relying party,
sign counts that are not new and sessions that are too long (`Wallet.receive`). The ledger refines
it: after every run, the account at an address is the wallet that has received the messages which
the program has accepted for that address, none of which it refuses, and whatever else happens on
the ledger leaves it alone (`wallet_simulates`).
-/

namespace ExternalSignature

open Lib Lib.Borsh

variable {host : Host}

/-! ## Messages -/

/-- A challenge that a passkey has signed for a relying party. -/
structure SignedChallenge where
  publicKey : CompressedP256PublicKey
  rpIdInfo : RpIdInformation
  challenge : Challenge
  signCount : UInt32
  /-- When the message is received. -/
  time : Int64
  deriving DecidableEq

/-- The session that a message opens. -/
def SignedChallenge.session (m : SignedChallenge) : Option SessionKey :=
  match m.challenge with
  | .init _ _ sessionKey => sessionKey
  | .execute .. => none
  | .refresh _ _ sessionKey =>
    some ⟨sessionKey.key, (m.time + sessionKey.expiration.toInt64).toUInt64⟩

/-- No session ends later than the limit after it is opened. -/
def SignedChallenge.Bounded (m : SignedChallenge) : Prop :=
  ∀ k ∈ m.session, k.expiration ≤ m.time.toUInt64 + sessionKeyExpirationLimit

instance (m : SignedChallenge) : Decidable m.Bounded :=
  inferInstanceAs (Decidable (∀ k ∈ m.session, _))

/-- The transaction carries the message, verified with the key: the client data that was signed has
the origin of the relying party and the hash of the challenge, and the authenticator data has the
hash of the relying party, the presence of a user and the sign count. -/
structure SignedChallenge.CarriedBy (host : Host) (m : SignedChallenge) (rt : Runtime) : Prop where
  time : m.time = rt.unixTimestamp
  signed : ∃ signed payload rpId json params, rt.instructions.signaturePayload = .ok signed ∧
    signed.publicKey = m.publicKey.toBytes.val ∧ m.challenge.encode = .ok payload ∧
    m.rpIdInfo.rpIdSlice = .ok rpId ∧
    reconstructClientDataJson params rpId (host.sha256 payload).val = .ok json ∧
    (host.sha256 json).val = signed.clientDataHash ∧
    (AuthDataParser.mk signed.authData).isUserPresent = .ok true ∧
    (AuthDataParser.mk signed.authData).rpIdHash = .ok m.rpIdInfo.rpIdHash.val ∧
    (AuthDataParser.mk signed.authData).getCounter = .ok m.signCount

/-! ## The machine -/

structure Wallet where
  publicKey : CompressedP256PublicKey
  rpIdInfo : RpIdInformation
  sessionKey : SessionKey
  counter : UInt64
  deriving DecidableEq

namespace Wallet

/-- The session key before any session. -/
def noSession : SessionKey := ⟨.zero 32, 0⟩

/-- A sign count of zero is not counted. -/
def counted (w : Wallet) (count : UInt32) : Wallet :=
  if count = 0 then w else { w with counter := count.toUInt64 }

/-- The message is one of the wallet's passkey, and new if it is counted. -/
structure Admits (w : Wallet) (m : SignedChallenge) : Prop where
  publicKey : m.publicKey = w.publicKey
  rpIdInfo : m.rpIdInfo = w.rpIdInfo
  fresh : m.signCount ≠ 0 → w.counter < m.signCount.toUInt64

instance (w : Wallet) (m : SignedChallenge) : Decidable (w.Admits m) :=
  decidable_of_iff (m.publicKey = w.publicKey ∧ m.rpIdInfo = w.rpIdInfo ∧
      (m.signCount ≠ 0 → w.counter < m.signCount.toUInt64))
    ⟨fun h => ⟨h.1, h.2.1, h.2.2⟩, fun h => ⟨h.publicKey, h.rpIdInfo, h.fresh⟩⟩

/-- The wallet after a message, unless it refuses the message. -/
def receive (wallet : Option Wallet) (m : SignedChallenge) : Option (Option Wallet) :=
  match wallet, m.challenge with
  | none, .init .. =>
    if m.Bounded then
      some (some (Wallet.counted ⟨m.publicKey, m.rpIdInfo, m.session.getD noSession, 0⟩ m.signCount))
    else none
  | none, _ => none
  | some _, .init .. => none
  | some w, _ =>
    if w.Admits m ∧ m.Bounded then
      some (some { w.counted m.signCount with sessionKey := m.session.getD w.sessionKey })
    else none

/-- The session of a wallet, also before there is one. -/
def session (wallet : Option Wallet) : SessionKey := (wallet.map (·.sessionKey)).getD noSession

end Wallet

/-! ## The view of the ledger -/

def P256WebauthnAccountData.wallet (data : P256WebauthnAccountData) : Wallet :=
  ⟨data.publicKey, data.rpIdInfo, data.sessionKey, data.counter⟩

/-- The account at `key`, if it is one of the program with a header. -/
def Ledger.account (l : Ledger) (key : Pubkey) : Option P256WebauthnAccountData :=
  if (l key).owner = ID then
    (Pod.read P256WebauthnAccountData (l key).data).filter fun data =>
      data.header.version = P256WebauthnAccountData.version ∧
        data.header.scheme = P256WebauthnAccountData.scheme
  else none

theorem Ledger.account_eq_some {l : Ledger} {key : Pubkey} {data : P256WebauthnAccountData} :
    l.account key = some data ↔ l.Holds key data := by
  simp only [account, Option.ite_none_right_eq_some, Option.filter_eq_some_iff, decide_eq_true_eq]
  rfl

/-- What the account at `key` is to its owner. -/
def Ledger.wallet (l : Ledger) (key : Pubkey) : Option Wallet := (l.account key).map (·.wallet)

theorem Ledger.wallet_of_holds {l : Ledger} {key : Pubkey} {data : P256WebauthnAccountData}
    (h : l.Holds key data) : l.wallet key = some data.wallet := by
  rw [wallet, account_eq_some.mpr h, Option.map_some]

theorem Ledger.wallet_of_unowned {l : Ledger} {key : Pubkey} (h : (l key).owner ≠ ID) :
    l.wallet key = none := by
  rw [wallet, account, if_neg h, Option.map_none]

theorem Ledger.wallet_congr {l l' : Ledger} {key : Pubkey}
    (h : ∀ data, l'.Holds key data ↔ l.Holds key data) : l'.wallet key = l.wallet key := by
  have haccount : l'.account key = l.account key := by
    apply Option.ext
    intro data
    rw [account_eq_some, account_eq_some, h]
  rw [wallet, wallet, haccount]

/-! ## The messages of a run -/

/-- A compressed key, by its encoding. -/
def CompressedP256PublicKey.ofBytes (bs : Bytes) : Option CompressedP256PublicKey :=
  if h : bs.length = 33 then some (.new ⟨bs, h⟩) else none

theorem CompressedP256PublicKey.ofBytes_toBytes (k : CompressedP256PublicKey) :
    ofBytes k.toBytes.val = some k := dif_pos k.toBytes.property

/-- The message that a call presents. -/
def Call.signedChallenge (host : Host) (l : Ledger) (c : Call) : Option SignedChallenge := do
  let signed ← c.rt.instructions.signaturePayload.toOption
  let presented ← (c.presented host l).toOption
  return {
    publicKey := ← CompressedP256PublicKey.ofBytes signed.publicKey
    rpIdInfo := presented.rpIdInfo
    challenge := presented.challenge
    signCount := ← c.rt.instructions.signCount.toOption
    time := c.rt.unixTimestamp }

/-- The message that the program accepts for the account at `key`, if the event is one. -/
def Ledger.receives (host : Host) (key : Pubkey) (l : Ledger) : Event → Option SignedChallenge
  | .call c => if c.Accepts host l ∧ c.external = some key then c.signedChallenge host l else none
  | _ => none

section

variable {l : Ledger} {c : Call} {nonceSigner : AccountInfo} {challenge : Challenge}
  {before after : P256WebauthnAccountData}

/-- The message of an accepted challenge. -/
def Acceptance.message (a : Acceptance host c.rt nonceSigner challenge before after) :
    SignedChallenge :=
  ⟨before.publicKey, before.rpIdInfo, challenge, a.verification.count, c.rt.unixTimestamp⟩

theorem Acceptance.carriedBy (a : Acceptance host c.rt nonceSigner challenge before after) :
    a.message.CarriedBy host c.rt :=
  ⟨rfl, a.verification.signed, a.payload, a.verification.rpId, a.verification.json, a.params,
    a.verification.presented, a.verification.publicKey, a.encoded, a.verification.rpIdSlice,
    a.verification.reconstructed, a.verification.clientDataHash, a.verification.present,
    a.verification.rpIdHash, a.verification.signCount⟩

theorem Acceptance.signedChallenge_eq
    (a : Acceptance host c.rt nonceSigner challenge before after)
    (h : c.presented host l = .ok ⟨challenge, before.rpIdInfo, a.params⟩) :
    c.signedChallenge host l = some a.message := by
  have hcount : c.rt.instructions.signCount = .ok a.verification.count :=
    bind_eq_ok.mpr ⟨_, a.verification.presented, a.verification.signCount⟩
  have hkey : CompressedP256PublicKey.ofBytes a.verification.signed.publicKey =
      some before.publicKey := by
    rw [a.verification.publicKey, CompressedP256PublicKey.ofBytes_toBytes]
  simp only [Call.signedChallenge, a.verification.presented, h, hcount, hkey, Except.toOption,
    Option.bind_eq_bind, Option.bind_some]
  rfl

theorem Verification.counted {ixs : Instructions} {params : ClientDataJsonReconstructionParams}
    {payload : Bytes} (v : Verification host before ixs params payload after) :
    before.wallet.counted v.count = after.wallet := by
  rw [congrArg P256WebauthnAccountData.wallet v.after_eq, Wallet.counted]
  split <;> rfl

theorem Acceptance.admits (a : Acceptance host c.rt nonceSigner challenge before after) :
    before.wallet.Admits a.message :=
  ⟨rfl, rfl, a.verification.fresh⟩

end

/-! ## One step -/

/-- A successful call that is no message leaves the wallet, and one that is moves it. -/
theorem Success.receives {l : Ledger} {c : Call} {left : AccountInfo}
    (h : Success host c.rt (c.infos l) c.data left) : ∃ after, Initialized left.data after ∧
    (c.data.head? = some 3 ∧ l.Holds left.key after ∨
      c.data.head? ≠ some 3 ∧ ∃ m, c.signedChallenge host l = some m ∧
        m.CarriedBy host c.rt ∧
        Wallet.receive (l.wallet left.key) m = some (some after.wallet)) := by
  generalize hdata : c.data = ixData at h
  cases h with
  | @init data _ run =>
    have hmem := Call.info_of_head run.accounts_eq
    have hpresented : c.presented host l = initializePresented host c.rt (c.infos l) data := by
      simp only [Call.presented, hdata]
    have hunowned : (l run.external.key).owner ≠ ID := by
      rw [← hmem.1, run.uninitialized.1]
      exact id_ne_system.symm
    have hcounted := run.acceptance.verification.counted
    have hbefore : run.before.wallet = ⟨run.before.publicKey, run.before.rpIdInfo,
        run.args.sessionKey.getD Wallet.noSession, 0⟩ := by
      rw [P256WebauthnAccountData.wallet, run.sessionKey, run.counter]
      rfl
    rw [run.left_eq]
    refine ⟨run.after, run.initialized.write run.acceptance.verification.after_fields.1,
      .inr ⟨by simp, _, run.acceptance.signedChallenge_eq
        (hpresented.trans run.presented), run.acceptance.carriedBy, ?_⟩⟩
    rw [Ledger.wallet_of_unowned hunowned, ← hcounted, hbefore]
    exact if_pos run.bounded
  | @execute data run =>
    have hmem := Call.info_of_head run.accounts_eq
    have hpresented : c.presented host l = executePresented host c.rt (c.infos l) data := by
      simp only [Call.presented, hdata]
    have hholds : l.Holds run.external.key run.before :=
      ⟨hmem.1.symm.trans run.owner, hmem.2 ▸ run.initialized⟩
    refine ⟨run.after, run.initialized.write run.acceptance.verification.after_fields.1,
      .inr ⟨by simp, _, run.acceptance.signedChallenge_eq
        (hpresented.trans run.presented), run.acceptance.carriedBy, ?_⟩⟩
    have hcounted := run.acceptance.verification.counted
    have hsession : run.after.sessionKey = run.before.sessionKey :=
      run.acceptance.verification.after_fields.2.2.2
    rw [show run.account.finish.key = run.external.key from rfl, Ledger.wallet_of_holds hholds]
    refine (if_pos ⟨run.acceptance.admits, fun k hk => by cases hk⟩).trans ?_
    rw [show run.acceptance.message.signCount = run.acceptance.verification.count from rfl, hcounted]
    congr 2
    exact congrArg (Wallet.mk _ _ · _) hsession.symm
  | @refresh data _ run =>
    have hmem := Call.info_of_head run.accounts_eq
    have hpresented : c.presented host l = refreshPresented host c.rt (c.infos l) data := by
      simp only [Call.presented, hdata]
    have hholds : l.Holds run.external.key run.before :=
      ⟨hmem.1.symm.trans run.owner, hmem.2 ▸ run.initialized⟩
    have hcounted := run.acceptance.verification.counted
    rw [run.left_eq]
    refine ⟨run.after, run.initialized.write ?_,
      .inr ⟨by simp, _, run.acceptance.signedChallenge_eq
        (hpresented.trans run.presented), run.acceptance.carriedBy, ?_⟩⟩
    · rw [run.after_eq]
      exact run.acceptance.verification.after_fields.1
    · rw [Ledger.wallet_of_holds hholds]
      have hbounded : run.acceptance.message.Bounded := by
        rintro _ ⟨⟩
        exact run.bounded
      refine (if_pos ⟨run.acceptance.admits, hbounded⟩).trans ?_
      rw [show run.acceptance.message.signCount = run.acceptance.verification.count from rfl,
        hcounted, run.after_eq]
      rfl
  | sessioned run =>
    have hmem := Call.info_of_head run.accounts_eq
    exact ⟨run.stored, run.initialized, .inl ⟨rfl, hmem.1.symm.trans run.owner,
      hmem.2 ▸ run.initialized⟩⟩

/-- A successful call, unless it uses a session, is a message for the account that it writes. -/
theorem Ledger.receives_of_ok {l : Ledger} {c : Call} {left : AccountInfo}
    (hr : (c.process host l).result = .ok left) (hkind : c.data.head? ≠ some 3) :
    l.receives host left.key (.call c) = c.signedChallenge host l := by
  have hok : c.Accepts host l := ⟨hkind, by rw [hr]; rfl⟩
  obtain ⟨a⟩ := hok.accepted
  obtain rfl := Except.ok.inj (hr.symm.trans a.process_ok)
  exact if_pos ⟨hok, a.external⟩

theorem Ledger.receives_eq_some {l : Ledger} {key : Pubkey} {e : Event} {m : SignedChallenge}
    (h : l.receives host key e = some m) : ∃ c left, e = .call c ∧
      (c.process host l).result = .ok left ∧ left.key = key ∧ c.data.head? ≠ some 3 ∧
      c.signedChallenge host l = some m := by
  cases e with
  | call c =>
    obtain ⟨⟨hok, hkey⟩, hm⟩ := Option.ite_none_right_eq_some.mp h
    obtain ⟨a⟩ := hok.accepted
    exact ⟨c, a.left, rfl, a.process_ok, Option.some.inj (a.external.symm.trans hkey), hok.1, hm⟩
  | assign => cases h
  | foreign => cases h

/-- A message for an account is carried by the transaction, and moves the wallet. -/
theorem Ledger.receives_received {l : Ledger} {key : Pubkey} {e : Event} {m : SignedChallenge}
    (h : l.receives host key e = some m) : ∃ c, e = .call c ∧
      m.CarriedBy host c.rt ∧
      Wallet.receive (l.wallet key) m = some ((l.step host e).wallet key) := by
  obtain ⟨c, left, rfl, hr, rfl, hkind, hm⟩ := receives_eq_some h
  obtain ⟨after, hi, ⟨hhead, -⟩ | ⟨-, m', hm', hcarried, hreceive⟩⟩ := (Call.process_ok hr).receives
  · exact absurd hhead hkind
  obtain rfl := Option.some.inj (hm.symm.trans hm')
  refine ⟨c, rfl, hcarried, hreceive.trans ?_⟩
  rw [wallet_of_holds (Call.step_holds hr (Call.process_ok hr).effect.1 hi)]

/-- What is no message for an account leaves the wallet alone. -/
theorem Ledger.wallet_step_of_receives {l : Ledger} {key : Pubkey} {e : Event}
    (h : l.receives host key e = none) : (l.step host e).wallet key = l.wallet key := by
  by_cases hw : l.Writes host key e
  · obtain ⟨c, left, rfl, hr, rfl, hstep⟩ := hw.holds
    obtain ⟨after, hi, ⟨-, hholds⟩ | ⟨hkind, m, hm, -⟩⟩ := (Call.process_ok hr).receives
    · rw [wallet_of_holds hholds, wallet_of_holds (hstep after hi)]
    · rw [receives_of_ok hr hkind, hm] at h
      cases h
  · exact wallet_congr fun _ => holds_step_of_not_writes hw

/-! ## Every run -/

theorem wallet_simulates (host : Host) (key : Pubkey) :
    Simulates (Ledger.step host) (Ledger.receives host key) (Ledger.wallet · key)
      Wallet.receive where
  silent l e h := Ledger.wallet_step_of_receives h
  received l e m h := by
    obtain ⟨-, -, -, hreceive⟩ := Ledger.receives_received h
    exact hreceive

/-- The messages that a run has brought to the account at `key`. -/
def Ledger.received (host : Host) (key : Pubkey) (start : Ledger) (es : List Event) :
    List SignedChallenge :=
  messages (step host) (receives host key) start es

theorem Ledger.replay_received (host : Host) (key : Pubkey) (start : Ledger) (es : List Event) :
    replay Wallet.receive (start.wallet key) (start.received host key es) =
      some ((run (step host) start es).wallet key) :=
  (wallet_simulates host key).replay start es

theorem Ledger.carried_of_received {start : Ledger} {es : List Event} {key : Pubkey}
    {m : SignedChallenge} (h : m ∈ start.received host key es) :
    ∃ c, .call c ∈ es ∧ m.CarriedBy host c.rt := by
  obtain ⟨before, e, after, rfl, hm⟩ := mem_messages h
  obtain ⟨c, rfl, hcarried, -⟩ := receives_received hm
  exact ⟨c, List.mem_append_right _ List.mem_cons_self, hcarried⟩

/-- After every run, an account is the wallet that has received, and refused none of, the messages
that the program has accepted for it. The transaction of each message carries it. -/
theorem wallet_refinement (host : Host) (key : Pubkey) (start : Ledger) (es : List Event) :
    replay Wallet.receive (start.wallet key) (start.received host key es) =
        some ((run (Ledger.step host) start es).wallet key) ∧
      ∀ m ∈ start.received host key es,
        ∃ c, .call c ∈ es ∧ m.CarriedBy host c.rt :=
  ⟨Ledger.replay_received host key start es, fun _ => Ledger.carried_of_received⟩

end ExternalSignature
