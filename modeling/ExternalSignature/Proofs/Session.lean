import ExternalSignature.Proofs.Authority

/-!
# Session keys

A session key is installed by an initialization that names one or by a refresh, and it replaces
the one before. What an account accepts at any time is the key installed last, and no longer than
the limit after its installation (`session_key_life`). The two instructions do not mean the same by
the expiration they are given: the refresh adds the current time to it, the initialization stores
it as it is (`session_key_paths`).
-/

namespace ExternalSignature

open Lib Lib.Borsh

variable {host : Host}

/-! ## Installations -/

/-- The session key that an instruction is asked to install. -/
def requestedSessionKey : (instructionData : Bytes) → Option SessionKey
  | 0 :: data => do (← (tryFromSlice InitializeAccountArgs data).toOption).sessionKey
  | 2 :: data => do return (← (tryFromSlice RefreshSessionKeyArgs data).toOption).sessionKey
  | _ => none

/-- A session key and the time it was installed. -/
structure Installation where
  sessionKey : ByteArr 32
  time : Int64
  deriving DecidableEq

namespace Ledger

/-- What an event installs on the account at `key`. -/
def installs (host : Host) (key : Pubkey) (l : Ledger) : Event → Option Installation
  | .call c =>
    match (c.process host l).result with
    | .ok left =>
      if left.key = key then
        (requestedSessionKey c.data).map fun k => ⟨k.key, c.rt.unixTimestamp⟩
      else none
    | .error _ => none
  | _ => none

/-- The most recent installation of a run. -/
def lastInstalled (host : Host) (key : Pubkey) (start : Ledger) (es : List Event) :
    Option Installation :=
  ((trace (step host) start es).filterMap fun p => p.1.installs host key p.2).getLast?

theorem lastInstalled_snoc (host : Host) (key : Pubkey) (start : Ledger) (es : List Event)
    (e : Event) : lastInstalled host key start (es ++ [e]) =
      ((run (step host) start es).installs host key e).or (lastInstalled host key start es) := by
  unfold lastInstalled
  rw [trace_append, List.filterMap_append, List.getLast?_append]
  cases h : (run (step host) start es).installs host key e <;> simp [trace, h]

end Ledger

/-- The clock of every call of a run. -/
def clocks (es : List Event) : List Int64 :=
  es.filterMap fun
    | .call c => some c.rt.unixTimestamp
    | _ => none

theorem clocks_append (es fs : List Event) : clocks (es ++ fs) = clocks es ++ clocks fs :=
  List.filterMap_append

theorem Ledger.installs_eq_some {l : Ledger} {key : Pubkey} {e : Event} {i : Installation}
    (h : l.installs host key e = some i) : ∃ c, e = .call c ∧ i.time = c.rt.unixTimestamp := by
  cases e with
  | call c =>
    refine ⟨c, rfl, ?_⟩
    simp only [installs] at h
    split at h
    · split at h
      · obtain ⟨_, -, rfl⟩ := Option.map_eq_some_iff.mp h
        rfl
      · cases h
    · cases h
  | assign => cases h
  | foreign => cases h

theorem Ledger.lastInstalled_time {start : Ledger} {key : Pubkey} {es : List Event}
    {i : Installation} (h : lastInstalled host key start es = some i) : i.time ∈ clocks es := by
  induction es using List.reverseRecOn with
  | nil => cases h
  | append_singleton es e ih =>
    rw [lastInstalled_snoc] at h
    rw [clocks_append]
    cases he : (run (step host) start es).installs host key e with
    | none =>
      rw [he, Option.none_or] at h
      exact List.mem_append_left _ (ih h)
    | some j =>
      rw [he, Option.some_or] at h
      obtain rfl := Option.some.inj h
      obtain ⟨c, rfl, ht⟩ := installs_eq_some he
      exact List.mem_append_right _ (by simp [clocks, ht])

/-! ## One step -/

/-- What a successful call makes of the session key of its account. -/
inductive SessionEffect (l : Ledger) (c : Call) (key : Pubkey) (now : SessionKey) : Prop where
  | installed (k : SessionKey) (requested : requestedSessionKey c.data = some k)
      (key_eq : now.key = k.key)
      (bounded : now.expiration ≤ P256WebauthnAccountData.expirationBound c.rt)
  | created (requested : requestedSessionKey c.data = none) (unowned : (l key).owner ≠ ID)
      (now_eq : now = freshAccountData.sessionKey)
  | kept (requested : requestedSessionKey c.data = none) (before : P256WebauthnAccountData)
      (holds : l.Holds key before) (now_eq : now = before.sessionKey)

theorem Success.sessionEffect {l : Ledger} {c : Call} {left : AccountInfo}
    (h : Success host c.rt (c.infos l) c.data left) :
    ∃ after, Initialized left.data after ∧ SessionEffect l c left.key after.sessionKey := by
  generalize hdata : c.data = ixData at h
  cases h with
  | init run =>
    have hmem := Call.info_of_head run.accounts_eq
    have hfields := run.acceptance.verification.after_fields
    have hrequested : requestedSessionKey c.data = run.args.sessionKey := by
      simp [hdata, requestedSessionKey, run.decoded, Except.toOption]
    have hnow : run.after.sessionKey = run.args.sessionKey.getD freshAccountData.sessionKey :=
      hfields.2.2.2.trans run.sessionKey
    rw [run.left_eq]
    refine ⟨run.after, run.initialized.write hfields.1, ?_⟩
    cases hk : run.args.sessionKey with
    | none =>
      refine .created (hrequested.trans hk) ?_ (by rw [hnow, hk]; rfl)
      rw [← hmem.1, run.uninitialized.1]
      exact id_ne_system.symm
    | some k =>
      rw [hk] at hnow
      refine .installed k (hrequested.trans hk) (congrArg SessionKey.key hnow) ?_
      rw [hnow]
      exact run.bounded k hk
  | execute run =>
    have hmem := Call.info_of_head run.accounts_eq
    have hfields := run.acceptance.verification.after_fields
    refine ⟨run.after, run.initialized.write hfields.1, .kept (by rw [hdata]; rfl) run.before
      ⟨hmem.1.symm.trans run.owner, hmem.2 ▸ run.initialized⟩ hfields.2.2.2⟩
  | refresh run =>
    have hfields := run.acceptance.verification.after_fields
    have hrequested : requestedSessionKey c.data = some run.args.sessionKey := by
      simp [hdata, requestedSessionKey, run.decoded, Except.toOption]
    rw [run.left_eq]
    refine ⟨run.after, run.initialized.write ?_, .installed _ hrequested ?_ ?_⟩
    · rw [run.after_eq]
      exact hfields.1
    · rw [run.after_eq]
    · rw [run.after_eq]
      exact run.bounded
  | sessioned run =>
    have hmem := Call.info_of_head run.accounts_eq
    exact ⟨run.stored, run.initialized, .kept (by rw [hdata]; rfl) run.stored
      ⟨hmem.1.symm.trans run.owner, hmem.2 ▸ run.initialized⟩ rfl⟩

/-- An account that the program does not own may become one without data. -/
theorem Ledger.holds_update_unowned {l : Ledger} {k key : Pubkey} {account : Account}
    {data : P256WebauthnAccountData} (hk : (l k).owner ≠ ID)
    (ha : ¬(account.owner = ID ∧ Initialized account.data data)) :
    Holds (Function.update l k account) key data ↔ l.Holds key data := by
  by_cases h : key = k
  · subst h
    exact iff_of_false (fun hd => ha (holds_update_self.mp hd)) (fun hd => hk hd.1)
  · exact holds_update_of_ne h

/-- An event that is not a call changes no initialized account. -/
theorem Ledger.holds_step_of_not_call {l : Ledger} {e : Event} {key : Pubkey}
    {data : P256WebauthnAccountData} (h : ∀ c, e ≠ .call c) :
    (l.step host e).Holds key data ↔ l.Holds key data := by
  obtain hs | ⟨c, _, rfl, -⟩ | ⟨k, size, -, hk, hs⟩ | ⟨k, account, -, hk, ha, hs⟩ :=
    l.step_cases host e
  · rw [hs]
  · exact absurd rfl (h c)
  · rw [hs]
    exact holds_update_unowned hk fun hd => not_initialized_replicate size data hd.2
  · rw [hs]
    exact holds_update_unowned hk fun hd => ha hd.1

/-- The event is a successful call that writes the account at `key`. -/
def Ledger.Writes (host : Host) (l : Ledger) (key : Pubkey) (e : Event) : Prop :=
  ∃ c left, e = .call c ∧ (c.process host l).result = .ok left ∧ left.key = key

/-- Any other event leaves the account as it is. -/
theorem Ledger.holds_step_of_not_writes {l : Ledger} {e : Event} {key : Pubkey}
    {data : P256WebauthnAccountData} (h : ¬l.Writes host key e) :
    (l.step host e).Holds key data ↔ l.Holds key data := by
  by_cases hcall : ∀ c, e ≠ .call c
  · exact holds_step_of_not_call hcall
  obtain ⟨c, rfl⟩ := not_forall_not.mp hcall
  cases hr : (c.process host l).result with
  | error =>
    have hstep : l.step host (.call c) = l := by simp only [step, hr]
    rw [hstep]
  | ok left =>
    rw [step_call_ok hr]
    exact holds_update_of_ne fun hk => h ⟨c, left, rfl, hr, hk.symm⟩

/-- The effect of a call on the account that it writes. -/
theorem Ledger.Writes.holds {l : Ledger} {e : Event} {key : Pubkey} (h : l.Writes host key e) :
    ∃ c left, e = .call c ∧ (c.process host l).result = .ok left ∧ left.key = key ∧
      ∀ data, Initialized left.data data → (l.step host e).Holds key data := by
  obtain ⟨c, left, rfl, hr, rfl⟩ := h
  refine ⟨c, left, rfl, hr, rfl, fun data hi => ?_⟩
  rw [step_call_ok hr]
  exact holds_update_self.mpr ⟨(Call.process_ok hr).effect.1, hi⟩

/-! ## The key of an account is the key installed last -/

/-- The session key that the last installation has left, or the one of an account without any. -/
def Installation.Left : Option Installation → SessionKey → Prop
  | none, k => k = freshAccountData.sessionKey
  | some i, k => k.key = i.sessionKey ∧ k.expiration ≤ i.time.toUInt64 + sessionKeyExpirationLimit

/-- What the installations of a run say about the account at `key`. -/
structure Ledger.Tracks (l : Ledger) (key : Pubkey) (last : Option Installation) : Prop where
  held : ∀ data, l.Holds key data → Installation.Left last data.sessionKey
  unheld : (∀ data, ¬l.Holds key data) → last = none

theorem Ledger.installs_of_not_writes {l : Ledger} {e : Event} {key : Pubkey}
    (h : ¬l.Writes host key e) : l.installs host key e = none := by
  cases e with
  | call c =>
    simp only [installs]
    split
    · rename_i left hr
      exact if_neg fun hk => h ⟨c, left, rfl, hr, hk⟩
    · rfl
  | assign => rfl
  | foreign => rfl

theorem Ledger.tracks_step {l : Ledger} {key : Pubkey} {last : Option Installation}
    (h : l.Tracks key last) (e : Event) :
    (l.step host e).Tracks key ((l.installs host key e).or last) := by
  by_cases hw : l.Writes host key e
  · obtain ⟨c, left, rfl, hr, rfl, hstep⟩ := hw.holds
    have hinstalls : l.installs host left.key (.call c) =
        (requestedSessionKey c.data).map fun k => ⟨k.key, c.rt.unixTimestamp⟩ := by
      simp only [installs, hr, if_pos]
    obtain ⟨after, hi, hs⟩ := (Call.process_ok hr).sessionEffect
    have hafter := hstep after hi
    refine ⟨fun data hd => ?_, fun hd => absurd hafter (hd after)⟩
    obtain rfl := hd.unique hafter
    rw [hinstalls]
    cases hs with
    | installed k hrequested hkey hbound =>
      rw [hrequested]
      exact ⟨hkey, hbound⟩
    | created hrequested hunowned hnow =>
      rw [hrequested, h.unheld fun _ hb => hunowned hb.1]
      exact hnow
    | kept hrequested before hb hnow =>
      rw [hrequested, hnow]
      exact h.held before hb
  · rw [installs_of_not_writes hw, Option.none_or]
    exact ⟨fun data hd => h.held data ((holds_step_of_not_writes hw).mp hd),
      fun hd => h.unheld fun data hh => hd data ((holds_step_of_not_writes hw).mpr hh)⟩

theorem Ledger.Fresh.tracks {start : Ledger} (h : start.Fresh) (key : Pubkey) (es : List Event) :
    (run (step host) start es).Tracks key (lastInstalled host key start es) := by
  refine run_history (p := fun es (l : Ledger) => l.Tracks key (lastInstalled host key start es))
    ?_ ?_ es
  · exact ⟨fun _ hd => absurd hd.1 (h key), fun _ => rfl⟩
  · intro es e ih
    rw [lastInstalled_snoc]
    exact tracks_step ih e

/-! ## The life of a session key -/

theorem toNat_toUInt64_of_nonneg {t : Int64} (h : 0 ≤ t.toInt) :
    (t.toUInt64.toNat : Int) = t.toInt := by
  rw [Int64.toNat_toUInt64_of_le (Int64.le_iff_toInt_le.mpr h)]
  exact Int.toNat_of_nonneg h

/-- A time below 2^62 and a duration within the limit do not wrap. -/
theorem toNat_add_duration {t d : UInt64} (ht : t.toNat < 2 ^ 62)
    (hd : d ≤ sessionKeyExpirationLimit) : (t + d).toNat = t.toNat + d.toNat := by
  have hd := UInt64.le_iff_toNat_le.mp hd
  have hl : sessionKeyExpirationLimit.toNat = 7776000 := rfl
  rw [UInt64.toNat_add, Nat.mod_eq_of_lt (by omega)]

/-- In every run with a clock that is positive, below 2^62 and never goes back, an account accepts
as session signer only the key of its most recent installation, and only within the limit. -/
theorem session_key_life {start : Ledger} (hstart : start.Fresh) (es : List Event) (c : Call)
    (hrange : ∀ t ∈ clocks (es ++ [.call c]), 0 < t.toInt ∧ t.toInt < 2 ^ 62)
    (hclock : (clocks (es ++ [.call c])).Pairwise (·.toInt ≤ ·.toInt))
    {external signer : AccountInfo} {rest : List AccountInfo} {account : ExternallySignedAccount}
    (haccounts : c.infos (run (Ledger.step host) start es) = external :: signer :: rest)
    (hload : ExternallySignedAccount.load external = .ok account)
    (hvalid : account.isValidSessionKey c.rt signer = .ok ()) :
    ∃ t₀, Ledger.lastInstalled host external.key start es = some ⟨signer.key, t₀⟩ ∧
      t₀.toInt ≤ c.rt.unixTimestamp.toInt ∧
      c.rt.unixTimestamp.toInt ≤ t₀.toInt + sessionKeyExpirationLimit.toNat := by
  rw [clocks_append] at hrange hclock
  have hnow : c.rt.unixTimestamp ∈ clocks [.call c] := List.mem_singleton_self _
  obtain ⟨hpos, hlt⟩ := hrange _ (List.mem_append_right _ hnow)
  obtain ⟨stored, hstored, -, hkey, hexpired⟩ := isValidSessionKey_ok hvalid
  obtain ⟨rfl, howner, hi⟩ := ExternallySignedAccount.owner_of_load hload hstored
  obtain ⟨hinfo, hinfodata⟩ := Call.info_of_head haccounts
  have hleft := (hstart.tracks external.key es).held stored ⟨hinfo.symm.trans howner, hinfodata ▸ hi⟩
  have hexpired := UInt64.le_iff_toNat_le.mp hexpired
  have hnat := toNat_toUInt64_of_nonneg (Int.le_of_lt hpos)
  cases hlast : Ledger.lastInstalled host external.key start es with
  | none =>
    -- the expiration of an account without a session key is 0
    rw [hlast] at hleft
    rw [show stored.sessionKey = _ from hleft] at hexpired
    have hzero : freshAccountData.sessionKey.expiration.toNat = 0 := rfl
    omega
  | some i =>
    rw [hlast] at hleft
    obtain ⟨hk, hbound⟩ := hleft
    have hmem := Ledger.lastInstalled_time hlast
    obtain ⟨hpos₀, hlt₀⟩ := hrange _ (List.mem_append_left _ hmem)
    have hnat₀ := toNat_toUInt64_of_nonneg (Int.le_of_lt hpos₀)
    have hbound := UInt64.le_iff_toNat_le.mp hbound
    rw [toNat_add_duration (by omega) (UInt64.le_refl _)] at hbound
    refine ⟨i.time, by rw [← hkey, hk], ?_, by omega⟩
    exact (List.pairwise_append.mp hclock).2.2 _ hmem _ hnow

namespace Sample

/-- The passkey asks for a session of one hour. -/
def refreshCall : Call where
  rt := runtime 1700000000 [slot] [precompile passkey
    0x03b4bb6c02a0adbb7a23cc31a87d203345a9ac5c92c43b1735b723873d2323f0
    0x113277b9cd8f199e9ef624c10e79191df19f620a4480aa29644d2c4fc77ba01c
    0 0x5e0e96346024d188652ba3d6c9e918815c5ce57cb5c319c170999505b60b5e85]
  accounts := [⟨external, true, false⟩, ⟨instructionsId, false, false⟩,
    ⟨slotHashesId, false, false⟩, ⟨payer, true, true⟩]
  data := 2 :: encoded (RefreshSessionKeyArgs.mk ⟨1⟩ 0
    (smallVec (encoded (verificationData passkey))) ⟨sessionSigner, 3600⟩)

def refreshed : P256WebauthnAccountData :=
  { stored with sessionKey := ⟨sessionSigner, 1700003600⟩ }

def sessionLedger : Ledger := Function.update ledger external ⟨ID, (Pod.bytes refreshed).val⟩

def refreshDigests : List (Bytes × ByteArr 32) := [
  (slot.hash.val ++ payer.val ++ ascii "refresh_session_key" ++ (sessionSigner.val ++
      leBytes 8 3600),
    .ofNat 32 0x2f9e40b614bdd36c0d5752cf68db5f5d01c7657b598042eedae58858dd5c4d4f),
  (clientDataJson "get" "L55AthS902wNV1LPaNtfXQHHZXtZgELu2uWIWN1cTU8",
    .ofNat 32 0x5e0e96346024d188652ba3d6c9e918815c5ce57cb5c319c170999505b60b5e85)]

theorem refreshDigests_eq : ∀ p ∈ refreshDigests, Sha256.hash p.1 = p.2 := by
  unfold refreshDigests
  simp only [List.forall_mem_cons, List.not_mem_nil, false_imp_iff, implies_true, and_true]
  refine ⟨?_, ?_⟩ <;> decide +kernel

/-- What is hashed and derived to refresh. -/
def refreshRecorded : Recorded := recorded.append (.ofDigests refreshDigests refreshDigests_eq)

theorem refreshCall_ok : (refreshCall.process .solana ledger).result =
    .ok ⟨external, false, true, ID, (Pod.bytes refreshed).val⟩ := by
  rw [← refreshRecorded.host_eq]
  decide +kernel

theorem step_refreshCall : ledger.step .solana (.call refreshCall) = sessionLedger := by
  rw [Ledger.step_call_ok refreshCall_ok]
  rfl

/-- The session key signs a minute later. -/
def sessionedCall : Call where
  rt := runtime 1700000060 [slot] []
  accounts := [⟨external, false, false⟩, ⟨sessionSigner, false, true⟩]
  data := 3 :: encoded (ExecutableInstructionSessionedArgs.mk 0 0 ⟨[], rfl⟩)

def refreshedInfo : AccountInfo := ⟨external, false, false, ID, (Pod.bytes refreshed).val⟩
def sessionSignerInfo : AccountInfo := ⟨sessionSigner, true, false, systemProgramId, []⟩

theorem sessionedCall_valid :
    ExternallySignedAccount.load refreshedInfo = .ok ⟨refreshedInfo, refreshedInfo.data⟩ ∧
    (ExternallySignedAccount.mk refreshedInfo refreshedInfo.data).isValidSessionKey sessionedCall.rt
      sessionSignerInfo = .ok () := by
  decide +kernel

end Sample

theorem session_key_life_refreshed : ∃ t₀,
    Ledger.lastInstalled .solana Sample.external Sample.genesis
      [.call Sample.initCall, .call Sample.refreshCall] = some ⟨Sample.sessionSigner, t₀⟩ ∧
    t₀.toInt ≤ Sample.sessionedCall.rt.unixTimestamp.toInt ∧
    Sample.sessionedCall.rt.unixTimestamp.toInt ≤
      t₀.toInt + sessionKeyExpirationLimit.toNat := by
  have haccounts : Sample.sessionedCall.infos (run (Ledger.step .solana) Sample.genesis
      [.call Sample.initCall, .call Sample.refreshCall]) =
        Sample.refreshedInfo :: Sample.sessionSignerInfo :: [] := by
    rw [run_cons, Sample.step_initCall, run_cons, Sample.step_refreshCall, run_nil]
    decide +kernel
  have hrange : ∀ t ∈ clocks ([.call Sample.initCall, .call Sample.refreshCall] ++
      [.call Sample.sessionedCall]), 0 < t.toInt ∧ t.toInt < 2 ^ 62 := by
    show ∀ t ∈ [1700000000, 1700000000, 1700000060], _
    simp only [List.forall_mem_cons, List.not_mem_nil, false_imp_iff, implies_true, and_true]
    decide
  have h := session_key_life Sample.genesis_fresh _ Sample.sessionedCall hrange
    (by decide +kernel) haccounts Sample.sessionedCall_valid.1 Sample.sessionedCall_valid.2
  exact h

/-! ## The two meanings of an expiration -/

/-- The account holds the session key until `t + d`. -/
def HoldsUntil (left : AccountInfo) (k : ByteArr 32) (t : Int64) (d : UInt64) : Prop :=
  ∃ data, Initialized left.data data ∧ data.sessionKey = ⟨k, t.toUInt64 + d⟩

/-- From `t` on, the account accepts the session key exactly until `t + d`. -/
def AcceptsUntil (left : AccountInfo) (k : ByteArr 32) (t : Int64) (d : UInt64) : Prop :=
  ∀ (rt : Runtime) (signer : AccountInfo), signer.isSigner → signer.key = k →
    t.toInt ≤ rt.unixTimestamp.toInt →
    ((ExternallySignedAccount.mk left left.data).isValidSessionKey rt signer = .ok () ↔
      rt.unixTimestamp.toInt ≤ t.toInt + d.toNat)

theorem isValidSessionKey_iff {left : AccountInfo} {data : P256WebauthnAccountData}
    {k : SessionKey} {rt : Runtime} {signer : AccountInfo} (hi : Initialized left.data data)
    (hk : data.sessionKey = k) (hsigned : signer.isSigner) (hkey : signer.key = k.key) :
    (ExternallySignedAccount.mk left left.data).isValidSessionKey rt signer = .ok () ↔
      rt.unixTimestamp.toUInt64 ≤ k.expiration := by
  have hdata : (ExternallySignedAccount.mk left left.data).dataRef = .ok data :=
    ExternallySignedAccount.dataRef_ok.mpr hi
  subst hk
  simp only [ExternallySignedAccount.isValidSessionKey, P256WebauthnAccountData.isValidSessionKey,
    bind_eq_ok, ensure_eq_ok, exists_unit, hdata, Except.ok.injEq, exists_eq_left']
  exact ⟨fun h => h.2.2, fun h => ⟨hsigned, hkey.symm, h⟩⟩

/-- An initialization stores the expiration that it is given. -/
theorem Success.initialize_sessionKey {rt : Runtime} {accounts : List AccountInfo} {ixData : Bytes}
    {left : AccountInfo} {k : SessionKey} (h : Success host rt accounts ixData left)
    (hi : ixData.head? = some 0) (hk : requestedSessionKey ixData = some k) :
    ∃ data, Initialized left.data data ∧ data.sessionKey = k := by
  cases h with
  | init run =>
    have hfields := run.acceptance.verification.after_fields
    have hargs : run.args.sessionKey = some k := by
      simpa [requestedSessionKey, run.decoded, Except.toOption] using hk
    rw [run.left_eq]
    refine ⟨run.after, run.initialized.write hfields.1, ?_⟩
    rw [hfields.2.2.2, run.sessionKey, hargs]
    rfl
  | execute => simp at hi
  | refresh => simp at hi
  | sessioned => simp at hi

/-- A refresh adds the time to the expiration that it is given. -/
theorem Success.refresh_sessionKey {rt : Runtime} {accounts : List AccountInfo} {ixData : Bytes}
    {left : AccountInfo} {k : SessionKey} (h : Success host rt accounts ixData left)
    (hi : ixData.head? = some 2) (hk : requestedSessionKey ixData = some k) :
    ∃ data, Initialized left.data data ∧
      data.sessionKey = ⟨k.key, rt.unixTimestamp.toUInt64 + k.expiration⟩ := by
  cases h with
  | refresh run =>
    have hfields := run.acceptance.verification.after_fields
    have hargs : run.args.sessionKey = k := by
      simpa [requestedSessionKey, run.decoded, Except.toOption] using hk
    rw [run.left_eq]
    refine ⟨run.after, run.initialized.write ?_, ?_⟩
    · rw [run.after_eq]
      exact hfields.1
    · rw [run.after_eq, hargs]
      rfl
  | init => simp at hi
  | execute => simp at hi
  | sessioned => simp at hi

section Paths

variable {left : AccountInfo} {data : P256WebauthnAccountData} {k : ByteArr 32} {t : Int64}
  {d : UInt64}

theorem acceptsUntil (hi : Initialized left.data data)
    (hk : data.sessionKey = ⟨k, t.toUInt64 + d⟩) (hpos : 0 < t.toInt) (hlt : t.toInt < 2 ^ 62)
    (hd : d ≤ sessionKeyExpirationLimit) : AcceptsUntil left k t d := by
  intro rt signer hsigned hkey ht
  rw [isValidSessionKey_iff hi hk hsigned hkey, UInt64.le_iff_toNat_le]
  have hnat := toNat_toUInt64_of_nonneg (Int.le_of_lt hpos)
  have hnow := toNat_toUInt64_of_nonneg (t := rt.unixTimestamp) (by omega)
  rw [show (⟨k, t.toUInt64 + d⟩ : SessionKey).expiration = t.toUInt64 + d from rfl,
    toNat_add_duration (by omega) hd]
  omega

/-- A key stored with the duration as its expiration is not accepted at the end of the duration. -/
theorem not_acceptsUntil (rt : Runtime) (hi : Initialized left.data data)
    (hk : data.sessionKey = ⟨k, d⟩) (hpos : 0 < t.toInt) (hlt : t.toInt < 2 ^ 62)
    (hd : d ≤ sessionKeyExpirationLimit) : ¬AcceptsUntil left k t d := by
  intro h
  have hnat := toNat_toUInt64_of_nonneg (Int.le_of_lt hpos)
  have hsum := toNat_add_duration (t := t.toUInt64) (by omega) hd
  have hdn := UInt64.le_iff_toNat_le.mp hd
  have hl : sessionKeyExpirationLimit.toNat = 7776000 := rfl
  have hend : (t + d.toInt64).toUInt64 = t.toUInt64 + d := rfl
  have hint : (t + d.toInt64).toInt = t.toInt + d.toNat := by
    have hb : (t + d.toInt64).toBitVec.toNat = (t.toUInt64 + d).toNat := rfl
    rw [Int64.toInt, BitVec.toInt_eq_toNat_of_lt (by omega)]
    omega
  have hvalid := (h { rt with unixTimestamp := t + d.toInt64 } ⟨k, true, false, k, []⟩ rfl rfl
    (by rw [hint]; omega)).mpr (Int.le_of_eq hint)
  have hle := (isValidSessionKey_iff hi hk rfl rfl).mp hvalid
  have hle := UInt64.le_iff_toNat_le.mp (hend ▸ hle : t.toUInt64 + d ≤ d)
  omega

end Paths

/-- At no time do an initialization and a refresh that are asked for the same session key agree: the
refresh stores and accepts it for the duration, the initialization stores the duration itself. -/
theorem session_key_paths {l₁ l₂ : Ledger} {c₁ c₂ : Call} {left₁ left₂ : AccountInfo}
    {k : ByteArr 32} {t : Int64} {d : UInt64}
    (h₁ : (c₁.process host l₁).result = .ok left₁) (h₂ : (c₂.process host l₂).result = .ok left₂)
    (hinit : c₁.data.head? = some 0) (hrefresh : c₂.data.head? = some 2)
    (hk₁ : requestedSessionKey c₁.data = some ⟨k, d⟩)
    (hk₂ : requestedSessionKey c₂.data = some ⟨k, d⟩)
    (ht₁ : c₁.rt.unixTimestamp = t) (ht₂ : c₂.rt.unixTimestamp = t)
    (hpos : 0 < t.toInt) (hlt : t.toInt < 2 ^ 62) (hd : d ≤ sessionKeyExpirationLimit) :
    (HoldsUntil left₂ k t d ∧ AcceptsUntil left₂ k t d) ∧
      ¬HoldsUntil left₁ k t d ∧ ¬AcceptsUntil left₁ k t d := by
  subst ht₁
  obtain ⟨data₁, hi₁, hs₁⟩ := (Call.process_ok h₁).initialize_sessionKey hinit hk₁
  obtain ⟨data₂, hi₂, hs₂⟩ := (Call.process_ok h₂).refresh_sessionKey hrefresh hk₂
  rw [ht₂] at hs₂
  refine ⟨⟨⟨data₂, hi₂, hs₂⟩, acceptsUntil hi₂ hs₂ hpos hlt hd⟩, ?_,
    not_acceptsUntil c₁.rt hi₁ hs₁ hpos hlt hd⟩
  rintro ⟨data, hi, hs⟩
  obtain rfl := hi.unique hi₁
  have hexp := congrArg (·.expiration.toNat) (hs.symm.trans hs₁)
  have hnat := toNat_toUInt64_of_nonneg (Int.le_of_lt hpos)
  have hsum := toNat_add_duration (t := c₁.rt.unixTimestamp.toUInt64) (by omega) hd
  simp only at hexp
  omega

namespace Sample

theorem initCall_requested :
    requestedSessionKey initCall.data = some ⟨sessionSigner, 3600⟩ := by
  decide +kernel

theorem refreshCall_requested :
    requestedSessionKey refreshCall.data = some ⟨sessionSigner, 3600⟩ := by
  decide +kernel

theorem refreshed_initialized : Initialized (Pod.bytes refreshed).val refreshed := by
  refine ⟨?_, rfl, rfl⟩
  decide +kernel

end Sample

section

open Sample

/-- Asked for the same session of one hour at the same time, the initialization stores an
expiration in 1970 and the refresh one in an hour. -/
theorem session_key_paths_differ :
    requestedSessionKey initCall.data = some ⟨sessionSigner, 3600⟩ ∧
    requestedSessionKey refreshCall.data = some ⟨sessionSigner, 3600⟩ ∧
    initCall.rt.unixTimestamp = 1700000000 ∧ refreshCall.rt.unixTimestamp = 1700000000 ∧
    ∃ created renewed, (initCall.process .solana genesis).result = .ok created ∧
      (refreshCall.process .solana ledger).result = .ok renewed ∧
      HoldsUntil renewed sessionSigner 1700000000 3600 ∧
      ¬HoldsUntil created sessionSigner 1700000000 3600 := by
  refine ⟨initCall_requested, refreshCall_requested, rfl, rfl, _, _, initCall_ok, refreshCall_ok,
    ⟨refreshed, refreshed_initialized, rfl⟩, ?_⟩
  rintro ⟨data, hi, hs⟩
  obtain rfl := hi.unique stored_initialized
  exact absurd hs (by decide)

theorem session_key_paths_sample :
    (∃ renewed, HoldsUntil renewed sessionSigner 1700000000 3600) ∧
      ∃ created, ¬HoldsUntil created sessionSigner 1700000000 3600 := by
  have h := session_key_paths initCall_ok refreshCall_ok rfl rfl initCall_requested
    refreshCall_requested rfl rfl (by decide) (by decide) (by decide)
  exact ⟨⟨_, h.1.1⟩, _, h.2.1⟩

end

end ExternalSignature
