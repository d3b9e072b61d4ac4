import ExternalSignature.Proofs.Authority

/-!
# Replay

What happens to a signed message that is presented more than once. There is no record of used
signatures: a message is accepted for one challenge only, and on one external account only; a sign
count that is not zero is accepted once; and every message expires with the slot it names.
-/

namespace ExternalSignature

open Lib Lib.Borsh

variable {host : Host}

/-! ## Accepted messages -/

namespace Call

/-- The external account that a call names. -/
def external (c : Call) : Option Pubkey := c.accounts.head?.map (·.pubkey)

/-- What a call of initialize, execute or refresh presents. -/
def presented (host : Host) (l : Ledger) (c : Call) : Outcome Presented :=
  match c.data with
  | 0 :: data => initializePresented host c.rt (c.infos l) data
  | 1 :: data => executePresented host c.rt (c.infos l) data
  | 2 :: data => refreshPresented host c.rt (c.infos l) data
  | _ => .error (.err .invalidInstructionData)

def challenge (host : Host) (l : Ledger) (c : Call) : Outcome Challenge := do
  return (← c.presented host l).challenge

/-- The strings that a call hashes to compare its message with its challenge. -/
def strings (host : Host) (l : Ledger) (c : Call) : List Bytes :=
  (do (← c.presented host l).strings host : Outcome (List Bytes)).toOption.getD []

/-- A call of initialize, execute or refresh that succeeds. -/
def Accepts (host : Host) (l : Ledger) (c : Call) : Prop :=
  c.data.head? ≠ some 3 ∧ (c.process host l).result.isOk

instance (host : Host) (l : Ledger) (c : Call) : Decidable (c.Accepts host l) :=
  inferInstanceAs (Decidable (_ ∧ _))

end Call

/-- What a call that accepts a message has checked, and what it leaves. -/
structure Accepted (host : Host) (l : Ledger) (c : Call) where
  left : AccountInfo
  nonceSigner : AccountInfo
  challenge : Challenge
  before : P256WebauthnAccountData
  verified : P256WebauthnAccountData
  after : P256WebauthnAccountData
  acceptance : Acceptance host c.rt nonceSigner challenge before verified
  process_ok : (c.process host l).result = .ok left
  bounded : challenge.Bounded
  presented : c.presented host l = .ok ⟨challenge, before.rpIdInfo, acceptance.params⟩
  external : c.external = some left.key
  holds : Ledger.Holds (l.step host (.call c)) left.key after
  counter : after.counter = verified.counter
  /-- The account is there before, or is created. -/
  origin : c.data.head? ≠ some 0 ∧ l.Holds left.key before ∨
    c.data.head? = some 0 ∧ (l left.key).owner ≠ ID ∧ DerivesTo host before.publicKey left.key

theorem Call.step_holds {l : Ledger} {c : Call} {left : AccountInfo}
    {data : P256WebauthnAccountData} (h : (c.process host l).result = .ok left)
    (howner : left.owner = ID) (hi : Initialized left.data data) :
    Ledger.Holds (l.step host (.call c)) left.key data := by
  simp only [Ledger.step, h]
  exact Ledger.holds_update_self.mpr ⟨howner, hi⟩

theorem length_infos_le (c : Call) (l : Ledger) : (c.infos l).length ≤ 254 :=
  List.length_take_le _ _

/-- A successful call leaves the external account. -/
theorem Success.external {l : Ledger} {c : Call} {left : AccountInfo}
    (h : Success host c.rt (c.infos l) c.data left) : c.external = some left.key := by
  generalize c.data = ixData at h
  cases h with
  | init run =>
    have hext := Call.head_pubkey (congrArg List.head? run.accounts_eq)
    rw [run.left_eq]
    exact hext
  | execute run =>
    have hext := Call.head_pubkey (congrArg List.head? run.accounts_eq)
    exact hext
  | refresh run =>
    have hext := Call.head_pubkey (congrArg List.head? run.accounts_eq)
    rw [run.left_eq]
    exact hext
  | sessioned run =>
    have hext := Call.head_pubkey (congrArg List.head? run.accounts_eq)
    exact hext

theorem Call.Accepts.accepted {l : Ledger} {c : Call} (h : c.Accepts host l) :
    Nonempty (Accepted host l c) := by
  obtain ⟨hkind, hok⟩ := h
  obtain ⟨left, hr⟩ : ∃ left, (c.process host l).result = .ok left := by
    cases hr : (c.process host l).result with
    | ok left => exact ⟨left, rfl⟩
    | error => rw [hr] at hok; cases hok
  have hs := Call.process_ok hr
  have hext := hs.external
  generalize hdata : c.data = ixData at hs hkind
  cases hs with
  | init run =>
    have hmem := Call.info_of_head run.accounts_eq
    have hkey : left.key = run.external.key := (congrArg AccountInfo.key run.left_eq).trans rfl
    have howner : left.owner = ID := (congrArg AccountInfo.owner run.left_eq).trans rfl
    have hleft : left.data = Pod.write run.after run.buf :=
      (congrArg AccountInfo.data run.left_eq).trans rfl
    have hi : Initialized left.data run.after := by
      rw [hleft]
      exact run.initialized.write run.acceptance.verification.after_fields.1
    have hunowned : (l left.key).owner ≠ ID := by
      rw [hkey, ← hmem.1, run.uninitialized.1]
      exact id_ne_system.symm
    exact ⟨{
      left := _, nonceSigner := _, challenge := _, before := _, verified := _, after := run.after
      acceptance := run.acceptance, process_ok := hr, bounded := trivial
      presented := by simp only [Call.presented, hdata, run.presented]
      external := hext
      holds := Call.step_holds hr howner hi
      counter := rfl
      origin := .inr ⟨by rw [hdata]; rfl, hunowned, hkey ▸ run.derived⟩ }⟩
  | execute run =>
    have hmem := Call.info_of_head run.accounts_eq
    have hlength := length_infos_le c l
    rw [congrArg List.length run.accounts_eq] at hlength
    exact ⟨{
      left := _, nonceSigner := _, challenge := _, before := _, verified := _, after := run.after
      acceptance := run.acceptance, process_ok := hr
      bounded := by simp [Challenge.Bounded] at hlength ⊢; omega
      presented := by simp only [Call.presented, hdata, run.presented]
      external := hext
      holds := Call.step_holds hr run.owner
        (run.initialized.write run.acceptance.verification.after_fields.1)
      counter := rfl
      origin := .inl ⟨by simp [hdata], hmem.1.symm.trans run.owner, hmem.2 ▸ run.initialized⟩ }⟩
  | refresh run =>
    have hmem := Call.info_of_head run.accounts_eq
    have hkey : left.key = run.external.key := (congrArg AccountInfo.key run.left_eq).trans rfl
    have howner : left.owner = run.external.owner :=
      (congrArg AccountInfo.owner run.left_eq).trans rfl
    have hleft : left.data = Pod.write run.after run.external.data :=
      (congrArg AccountInfo.data run.left_eq).trans rfl
    have hheader : run.after.header = run.before.header := by
      rw [run.after_eq]
      exact run.acceptance.verification.after_fields.1
    have hi : Initialized left.data run.after := by
      rw [hleft]
      exact run.initialized.write hheader
    have hholds : l.Holds run.external.key run.before :=
      ⟨hmem.1.symm.trans run.owner, hmem.2 ▸ run.initialized⟩
    exact ⟨{
      left := _, nonceSigner := _, challenge := _, before := _, verified := _, after := run.after
      acceptance := run.acceptance, process_ok := hr, bounded := trivial
      presented := by simp only [Call.presented, hdata, run.presented]
      external := hext
      holds := Call.step_holds hr (howner.trans run.owner) hi
      counter := by rw [run.after_eq]
      origin := .inl ⟨by simp [hdata], hkey ▸ hholds⟩ }⟩
  | sessioned => exact absurd rfl hkind

/-- The sign count of the message that the transaction carries. -/
def Instructions.signCount (ixs : Instructions) : Outcome UInt32 := do
  (AuthDataParser.mk (← ixs.signaturePayload).authData).getCounter

namespace Accepted

variable {l l' : Ledger} {c c' : Call}

/-- The account is one of the key that has signed. -/
theorem derived (a : Accepted host l c) (hl : l.Sound host) :
    DerivesTo host a.before.publicKey a.left.key := by
  obtain ⟨-, hh⟩ | ⟨-, -, hd⟩ := a.origin
  · exact (hl _ _ hh).derived
  · exact hd

theorem signCount (a : Accepted host l c) :
    c.rt.instructions.signCount = .ok a.acceptance.verification.count :=
  bind_eq_ok.mpr ⟨_, a.acceptance.verification.presented, a.acceptance.verification.signCount⟩

theorem challenge_eq (a : Accepted host l c) : c.challenge host l = .ok a.challenge :=
  bind_eq_ok.mpr ⟨_, a.presented, rfl⟩

theorem strings_eq (a : Accepted host l c) : c.strings host l = a.acceptance.hashed := by
  have h : (do (← c.presented host l).strings host : Outcome (List Bytes)) =
      .ok a.acceptance.hashed := bind_eq_ok.mpr ⟨_, a.presented, a.acceptance.strings_eq⟩
  unfold Call.strings
  rw [h]
  rfl

/-- One message is accepted for one challenge. -/
theorem challenge_unique (a : Accepted host l c) (b : Accepted host l' c')
    (hm : a.acceptance.verification.signed.clientDataHash =
      b.acceptance.verification.signed.clientDataHash)
    (hfree : host.CollisionFreeOn (c.strings host l ++ c'.strings host l')) :
    a.challenge = b.challenge := by
  rw [a.strings_eq, b.strings_eq] at hfree
  exact a.acceptance.challenge_unique b.acceptance a.bounded b.bounded hm hfree

theorem clientDataHash_eq (a : Accepted host l c) (b : Accepted host l' c')
    {s t : SignaturePayload} (hs : c.rt.instructions.signaturePayload = .ok s)
    (ht : c'.rt.instructions.signaturePayload = .ok t) (h : s.message = t.message) :
    a.acceptance.verification.signed.clientDataHash =
      b.acceptance.verification.signed.clientDataHash := by
  obtain rfl := Except.ok.inj (hs.symm.trans a.acceptance.verification.presented)
  obtain rfl := Except.ok.inj (ht.symm.trans b.acceptance.verification.presented)
  unfold SignaturePayload.clientDataHash
  rw [h]

/-- Calls of one transaction read the same message. -/
theorem signed_eq (a : Accepted host l c) (b : Accepted host l' c')
    (h : c.rt.instructions = c'.rt.instructions) :
    a.acceptance.verification.signed = b.acceptance.verification.signed := by
  have hb := (congrArg Instructions.signaturePayload h).trans b.acceptance.verification.presented
  exact Except.ok.inj (a.acceptance.verification.presented.symm.trans hb)

theorem publicKey_eq (a : Accepted host l c) (b : Accepted host l' c')
    (h : c.rt.instructions = c'.rt.instructions) : a.before.publicKey = b.before.publicKey := by
  apply CompressedP256PublicKey.toBytes_inj
  apply Subtype.ext
  rw [← a.acceptance.verification.publicKey, ← b.acceptance.verification.publicKey,
    a.signed_eq b h]

/-- The account stays, and its counter never falls. -/
theorem holds_later (a : Accepted host l c) (es : List Event) :
    ∃ data, Ledger.Holds (run (Ledger.step host) (l.step host (.call c)) es) a.left.key data ∧
      a.after.counter ≤ data.counter := by
  obtain ⟨data, hd, hc⟩ := Ledger.run_continues host _ es _ _ a.holds
  exact ⟨data, hd, hc.counter⟩

/-- A later call that accepts a message on the same account does not create it. -/
theorem not_initialize_later (a : Accepted host l c) {es : List Event}
    (b : Accepted host (run (Ledger.step host) (l.step host (.call c)) es) c')
    (hk : a.left.key = b.left.key) : c'.data.head? ≠ some 0 := by
  obtain ⟨data, hd, -⟩ := a.holds_later es
  obtain ⟨hne, -⟩ | ⟨-, hunowned, -⟩ := b.origin
  · exact hne
  · exact absurd (hk ▸ hd.1) hunowned

/-- A sign count that is not zero is accepted once on an account. -/
theorem signCount_later (a : Accepted host l c) {es : List Event}
    (b : Accepted host (run (Ledger.step host) (l.step host (.call c)) es) c')
    (h : c.rt.instructions = c'.rt.instructions) (hne : c.rt.instructions.signCount ≠ .ok 0) :
    a.left.key ≠ b.left.key := by
  intro hk
  have hcount : a.acceptance.verification.count = b.acceptance.verification.count := by
    have hb := (congrArg Instructions.signCount h).trans b.signCount
    exact Except.ok.inj (a.signCount.symm.trans hb)
  have hzero : a.acceptance.verification.count ≠ 0 := by
    intro hz
    exact hne (hz ▸ a.signCount)
  obtain ⟨data, hd, hle⟩ := a.holds_later es
  rw [a.counter, a.acceptance.verification.counter_eq hzero] at hle
  have hlt := b.acceptance.verification.fresh (hcount ▸ hzero)
  rw [← hcount] at hlt
  obtain ⟨-, hb⟩ | ⟨-, hunowned, -⟩ := b.origin
  · obtain rfl := (hk ▸ hd).unique hb
    exact absurd hlt (UInt64.not_lt.mpr hle)
  · exact absurd (hk ▸ hd.1) hunowned

end Accepted

/-! ## The acceptances of a run -/

namespace Ledger

/-- The call, if the event is one that accepts a message. -/
def acceptance (host : Host) : Ledger × Event → Option (Ledger × Call)
  | (l, .call c) => if c.Accepts host l then some (l, c) else none
  | _ => none

theorem acceptance_eq_some {p : Ledger × Event} {q : Ledger × Call}
    (h : acceptance host p = some q) : p = (q.1, .call q.2) ∧ q.2.Accepts host q.1 := by
  obtain ⟨l, e⟩ := p
  cases e with
  | call c =>
    obtain ⟨ha, he⟩ := Option.ite_none_right_eq_some.mp h
    obtain rfl := Option.some.inj he
    exact ⟨rfl, ha⟩
  | assign => cases h
  | foreign => cases h

/-- The calls of a run that accept a message, each with the ledger it meets. -/
def acceptances (host : Host) (start : Ledger) (es : List Event) : List (Ledger × Call) :=
  (trace (step host) start es).filterMap (acceptance host)

variable {start : Ledger} {es : List Event} {p q : Ledger × Call}

theorem mem_acceptances (h : p ∈ acceptances host start es) :
    ∃ before after, es = before ++ .call p.2 :: after ∧ p.1 = run (step host) start before ∧
      p.2.Accepts host p.1 := by
  obtain ⟨t, hmem, ht⟩ := List.mem_filterMap.mp h
  obtain ⟨rfl, ha⟩ := acceptance_eq_some ht
  obtain ⟨before, after, hes, hl⟩ := mem_trace hmem
  exact ⟨before, after, hes, hl, ha⟩

theorem accepted_of_mem (h : p ∈ acceptances host start es) :
    Nonempty (Accepted host p.1 p.2) := by
  obtain ⟨-, -, -, -, ha⟩ := mem_acceptances h
  exact ha.accepted

theorem call_mem_of_acceptance (h : p ∈ acceptances host start es) : .call p.2 ∈ es := by
  obtain ⟨before, after, hes, -⟩ := mem_acceptances h
  rw [hes]
  exact List.mem_append_right _ List.mem_cons_self

theorem Sound.of_mem_acceptances (hs : start.Sound host) (h : p ∈ acceptances host start es) :
    p.1.Sound host := by
  obtain ⟨before, -, -, hp, -⟩ := mem_acceptances h
  rw [hp]
  exact run_sound hs before

/-- Each acceptance meets a ledger that the earlier ones lead to. -/
theorem acceptances_later (host : Host) (start : Ledger) (es : List Event) :
    (acceptances host start es).Pairwise fun p q =>
      ∃ fs, q.1 = run (step host) (p.1.step host (.call p.2)) fs := by
  refine List.pairwise_filterMap.mpr (pairwise_trace fun before e after r _ hr p hp q hq => ?_)
  obtain ⟨fs, _, -, hr⟩ := mem_trace hr
  obtain ⟨hp, -⟩ := acceptance_eq_some hp
  obtain ⟨rfl, -⟩ := acceptance_eq_some hq
  have hl : run (step host) start before = p.1 := congrArg Prod.fst hp
  have he : e = .call p.2 := congrArg Prod.snd hp
  rw [hl, he] at hr
  exact ⟨fs, hr⟩

end Ledger

theorem length_le_one_of_pairwise {α : Type} {l : List α} (h : l.Pairwise fun _ _ => False) :
    l.length ≤ 1 := by
  match l, h with
  | [], _ => exact Nat.zero_le _
  | [_], _ => exact Nat.le_refl _
  | _ :: _ :: _, .cons h _ => exact (h _ List.mem_cons_self).elim

/-! ## One transaction -/

section Transaction

variable {start : Ledger} {es : List Event} {ixs : Instructions}

/-- All acceptances of one transaction are on one external account. -/
theorem acceptances_external (hixs : ∀ c, .call c ∈ es → c.rt.instructions = ixs)
    (hs : start.Sound host) {p q : Ledger × Call} (hp : p ∈ Ledger.acceptances host start es)
    (hq : q ∈ Ledger.acceptances host start es) : p.2.external = q.2.external := by
  obtain ⟨a⟩ := Ledger.accepted_of_mem hp
  obtain ⟨b⟩ := Ledger.accepted_of_mem hq
  have h := (hixs _ (Ledger.call_mem_of_acceptance hp)).trans
    (hixs _ (Ledger.call_mem_of_acceptance hq)).symm
  have hd := a.derived (hs.of_mem_acceptances hp)
  rw [a.publicKey_eq b h] at hd
  rw [a.external, b.external, hd.unique (b.derived (hs.of_mem_acceptances hq))]

/-- A sign count that is not zero is accepted once on each external account. -/
theorem acceptances_nodup (hixs : ∀ c, .call c ∈ es → c.rt.instructions = ixs)
    (hne : ixs.signCount ≠ .ok 0) :
    ((Ledger.acceptances host start es).map fun p => p.2.external).Nodup := by
  refine List.pairwise_map.mpr
    ((Ledger.acceptances_later host start es).imp_of_mem fun {p q} hp hq hlater hk => ?_)
  obtain ⟨fs, hl⟩ := hlater
  have hip := hixs _ (Ledger.call_mem_of_acceptance hp)
  have hiq := hixs _ (Ledger.call_mem_of_acceptance hq)
  obtain ⟨a⟩ := Ledger.accepted_of_mem hp
  obtain ⟨b⟩ := Ledger.accepted_of_mem hq
  rw [a.external, b.external] at hk
  obtain ⟨l', c'⟩ := q
  obtain rfl : l' = _ := hl
  exact a.signCount_later b (hip.trans hiq.symm) (hip ▸ hne) (Option.some.inj hk)

/-- An account is created once. -/
theorem acceptances_initialize (hixs : ∀ c, .call c ∈ es → c.rt.instructions = ixs) :
    ((Ledger.acceptances host start es).filter fun p => p.2.data.head? = some 0).length ≤ 1 := by
  refine length_le_one_of_pairwise (List.pairwise_filter.mpr
    ((Ledger.acceptances_later host start es).imp_of_mem fun {p q} hp hq hlater hip hiq => ?_))
  obtain ⟨fs, hl⟩ := hlater
  have h := (hixs _ (Ledger.call_mem_of_acceptance hp)).trans
    (hixs _ (Ledger.call_mem_of_acceptance hq)).symm
  obtain ⟨a⟩ := Ledger.accepted_of_mem hp
  obtain ⟨b⟩ := Ledger.accepted_of_mem hq
  have hip := of_decide_eq_true hip
  have hiq := of_decide_eq_true hiq
  have hda := (a.origin.resolve_left fun ho => ho.1 hip).2.2
  have hdb := (b.origin.resolve_left fun ho => ho.1 hiq).2.2
  rw [a.publicKey_eq b h] at hda
  have hk := hda.unique hdb
  obtain ⟨l', c'⟩ := q
  obtain rfl : l' = _ := hl
  exact a.not_initialize_later b hk hiq

/-- One message is accepted for one challenge. -/
theorem acceptances_challenge (hixs : ∀ c, .call c ∈ es → c.rt.instructions = ixs)
    (hfree : host.CollisionFreeOn
      ((Ledger.acceptances host start es).flatMap fun p => p.2.strings host p.1)) :
    ∃ challenge, ∀ p ∈ Ledger.acceptances host start es,
      p.2.challenge host p.1 = .ok challenge := by
  cases hall : Ledger.acceptances host start es with
  | nil => exact ⟨.refresh (.zero 32) ID ⟨.zero 32, 0⟩, by simp⟩
  | cons q rest =>
    rw [← hall]
    have hq : q ∈ Ledger.acceptances host start es := hall ▸ List.mem_cons_self
    obtain ⟨b⟩ := Ledger.accepted_of_mem hq
    refine ⟨b.challenge, fun p hp => ?_⟩
    obtain ⟨a⟩ := Ledger.accepted_of_mem hp
    have h := (hixs _ (Ledger.call_mem_of_acceptance hp)).trans
      (hixs _ (Ledger.call_mem_of_acceptance hq)).symm
    have hsub : p.2.strings host p.1 ++ q.2.strings host q.1 ⊆
        (Ledger.acceptances host start es).flatMap fun p => p.2.strings host p.1 := by
      intro x hx
      rcases List.mem_append.mp hx with hx | hx
      · exact List.mem_flatMap.mpr ⟨p, hp, hx⟩
      · exact List.mem_flatMap.mpr ⟨q, hq, hx⟩
    rw [a.challenge_eq, a.challenge_unique b (by rw [a.signed_eq b h]) (hfree.mono hsub)]

/-- The calls of one transaction that accept its message all have the same challenge, and at most
one of them is an initialization. A sign count that is not zero is accepted once on each external
account, and where accounts are at the address of their key, once. -/
theorem one_signature (hixs : ∀ c, .call c ∈ es → c.rt.instructions = ixs) :
    (host.CollisionFreeOn
        ((Ledger.acceptances host start es).flatMap fun p => p.2.strings host p.1) →
      ∃ challenge, ∀ p ∈ Ledger.acceptances host start es,
        p.2.challenge host p.1 = .ok challenge) ∧
    ((Ledger.acceptances host start es).filter fun p => p.2.data.head? = some 0).length ≤ 1 ∧
    (ixs.signCount ≠ .ok 0 →
      ((Ledger.acceptances host start es).map fun p => p.2.external).Nodup ∧
      (start.Sound host → (Ledger.acceptances host start es).length ≤ 1)) := by
  refine ⟨acceptances_challenge hixs, acceptances_initialize hixs, fun hne => ?_⟩
  have hnodup : ((Ledger.acceptances host start es).map fun p => p.2.external).Nodup :=
    acceptances_nodup hixs hne
  refine ⟨hnodup, fun hs => length_le_one_of_pairwise ?_⟩
  exact (List.pairwise_map.mp hnodup).imp_of_mem fun hp hq hk =>
    hk (acceptances_external hixs hs hp hq)

end Transaction

namespace Sample

theorem step_executeCall : ledger.step .solana (.call executeCall) = ledger := by
  rw [Ledger.step_call_ok (congrArg Processed.result executeCall_executionAccount)]
  exact Function.update_idem _ _ _

theorem executeCall_accepts : executeCall.Accepts .solana ledger := by
  refine ⟨by decide, ?_⟩
  rw [executeCall_executionAccount]
  rfl

theorem acceptances_executeCall : Ledger.acceptances .solana ledger
    [.call executeCall, .call executeCall] = [(ledger, executeCall), (ledger, executeCall)] := by
  simp only [Ledger.acceptances, trace, step_executeCall]
  simp [Ledger.acceptance, executeCall_accepts]

theorem executeCall_collisionFree :
    Host.solana.CollisionFreeOn (executeCall.strings .solana ledger) := by
  rw [← executeRecorded.host_eq]
  decide +kernel

/-- The public key of the private key 2, and the address of its external account. -/
def otherPasskey : ByteArr 33 :=
  .ofNat 33 0x037cf27b188d034f7e8a52380304b51ac3c08969e277f21b35a60b48fc47669978

def other : Pubkey :=
  .ofNat 32 0xbe0cb2935b55ad63a60af0141231d8c5d224ecd8accb64403038de0eca1bc4eb

/-- The signature of `passkey` for the same call, with a sign count of one. -/
def countedSignature : IntrospectedInstruction := precompile passkey
  0x3a318e74190d87084204111cc9c81a15f2f3931333fdfb23427277189e6ec764
  0x50ce525ab209ae9d2c249ba0c6e43cadab9149bfb47956e5cca238a98d959557
  1 0xbddcefeb63b3071385d2359d9230be301d7eacbbf9c850065125d34515d68c68

/-- The call of `executeCall`, with a sign count of one. -/
def countedCall : Call := executeWith external passkey [slot] countedSignature 0

theorem acceptances_countedCall_pos : 0 <
    (Ledger.acceptances .solana ledger [.call countedCall, .call countedCall]).length := by
  rw [← executeRecorded.host_eq]
  decide +kernel

theorem calls_instructions (c₀ : Call) : ∀ c, .call c ∈ [Event.call c₀, .call c₀] →
    c.rt.instructions = c₀.rt.instructions := by
  intro c hc
  simp only [List.mem_cons, List.not_mem_nil, or_false, Event.call.injEq, or_self] at hc
  rw [hc]

/-- A ledger that is not reachable: the account of `otherPasskey` stores `passkey`. -/
def twin : Ledger := Function.update ledger other ⟨ID, (Pod.bytes stored).val⟩

def otherDigests : List (Bytes × ByteArr 32) := [(otherPasskey.val,
  .ofNat 32 0x97e9d1d2a642f9d771b3a301aaedc8c8b534dfcb7bff6813309b04d088525031)]

def otherAddresses : List (List Bytes × Option (Pubkey × UInt8)) := [
  ([ascii "passkey", (ByteArr.ofNat 32
      0x97e9d1d2a642f9d771b3a301aaedc8c8b534dfcb7bff6813309b04d088525031).val],
    some (other, 254)),
  ([other.val, ascii "execution_account"],
    some (.ofNat 32 0x5463799b535021d8b544ca6b128a9d5912613a66313a516e225e0ae602ac2a1e, 252))]

theorem otherDigests_eq : ∀ p ∈ otherDigests, Sha256.hash p.1 = p.2 := by
  unfold otherDigests
  simp only [List.forall_mem_singleton]
  decide +kernel

theorem otherAddresses_eq : ∀ p ∈ otherAddresses, Solana.tryFindProgramAddress p.1 ID = p.2 := by
  unfold otherAddresses
  simp only [List.forall_mem_cons, List.not_mem_nil, false_imp_iff, implies_true, and_true]
  refine ⟨?_, ?_⟩ <;> decide +kernel

/-- What is hashed and derived for the other account. -/
def otherRecorded : Recorded := executeRecorded.append
  ⟨otherDigests, otherAddresses, otherDigests_eq, otherAddresses_eq⟩

theorem acceptances_twin : (Ledger.acceptances .solana twin
    [.call countedCall,
      .call (executeWith other otherPasskey [slot] countedSignature 0)]).length = 2 := by
  rw [← otherRecorded.host_eq]
  decide +kernel

end Sample

/-- In a reachable ledger, a message with the sign count zero is executed twice in one transaction;
and where two accounts store one key, so is a message with the sign count one. -/
theorem one_signature_twice :
    Sample.ledger.Reachable .solana ∧
    Sample.executeCall.rt.instructions.signCount = .ok 0 ∧
    Ledger.acceptances .solana Sample.ledger [.call Sample.executeCall, .call Sample.executeCall] =
      [(Sample.ledger, Sample.executeCall), (Sample.ledger, Sample.executeCall)] ∧
    (Sample.executeCall.process .solana Sample.ledger).invocations =
      [Sample.invocation true [Sample.external.val, ascii "execution_account", [255]]] ∧
    (Ledger.acceptances .solana Sample.twin
      [.call (Sample.executeWith Sample.external Sample.passkey [Sample.slot]
          Sample.countedSignature 0),
        .call (Sample.executeWith Sample.other Sample.otherPasskey [Sample.slot]
          Sample.countedSignature 0)]).length = 2 := by
  refine ⟨Sample.ledger_reachable, by decide +kernel, Sample.acceptances_executeCall, ?_,
    Sample.acceptances_twin⟩
  rw [Sample.executeCall_executionAccount]

/-- A message without a sign count is accepted twice for one challenge, and one with a sign count
once. -/
theorem one_signature_execute :
    (∃ challenge, ∀ p ∈ Ledger.acceptances .solana Sample.ledger
      [.call Sample.executeCall, .call Sample.executeCall],
        p.2.challenge .solana p.1 = .ok challenge) ∧
    ((Ledger.acceptances .solana Sample.ledger
      [.call Sample.countedCall, .call Sample.countedCall]).map fun p => p.2.external).Nodup ∧
    (Ledger.acceptances .solana Sample.ledger
      [.call Sample.countedCall, .call Sample.countedCall]).length = 1 := by
  constructor
  · refine (one_signature (Sample.calls_instructions Sample.executeCall)).1 ?_
    rw [Sample.acceptances_executeCall]
    refine Sample.executeCall_collisionFree.mono ?_
    simp
  · obtain ⟨-, -, hcounted⟩ := @one_signature .solana Sample.ledger _ _
      (Sample.calls_instructions Sample.countedCall)
    obtain ⟨hnodup, hlength⟩ := hcounted (by decide +kernel)
    refine ⟨hnodup, Nat.le_antisymm (hlength Sample.ledger_reachable.sound) ?_⟩
    exact Sample.acceptances_countedCall_pos

/-! ## Over time -/

/-- The snapshots of the SlotHashes sysvar that a run reads. -/
structure ConsistentSlotHashes (es : List Event) : Prop where
  descending : ∀ c, .call c ∈ es → c.rt.slotHashes.Pairwise (·.height > ·.height)
  /-- A slot keeps its hash, and two slots have different ones. -/
  hash_iff : ∀ c c', .call c ∈ es → .call c' ∈ es → ∀ s ∈ c.rt.slotHashes,
    ∀ s' ∈ c'.rt.slotHashes, s.hash = s'.hash ↔ s.height = s'.height

/-- A message that is accepted at two points of a run is accepted within 150 slots, whatever the
truncated slots that come with it. -/
theorem message_expires {start : Ledger} {es : List Event} (hslots : ConsistentSlotHashes es)
    {p q : Ledger × Call} (hp : p ∈ Ledger.acceptances host start es)
    (hq : q ∈ Ledger.acceptances host start es) {s t : SignaturePayload}
    (hs : p.2.rt.instructions.signaturePayload = .ok s)
    (ht : q.2.rt.instructions.signaturePayload = .ok t) (hmessage : s.message = t.message)
    (hfree : host.CollisionFreeOn (p.2.strings host p.1 ++ q.2.strings host q.1)) {m n : SlotHash}
    (hm : p.2.rt.slotHashes[0]? = some m) (hn : q.2.rt.slotHashes[0]? = some n) :
    ((m.height.toNat : Int) - n.height.toNat).natAbs < 150 := by
  obtain ⟨a⟩ := Ledger.accepted_of_mem hp
  obtain ⟨b⟩ := Ledger.accepted_of_mem hq
  have hchallenge := a.challenge_unique b (a.clientDataHash_eq b hs ht hmessage) hfree
  have hna := a.acceptance.nonce
  have hnb := b.acceptance.nonce
  -- the challenge names one slot hash, and so one slot
  have hhash : hna.entry.hash = hnb.entry.hash := by
    rw [← hna.slothash, ← hnb.slothash, hchallenge]
  have hheight := (hslots.hash_iff _ _ (Ledger.call_mem_of_acceptance hp)
    (Ledger.call_mem_of_acceptance hq) _ hna.entry_mem _ hnb.entry_mem).mp hhash
  have hma : hna.newest = m := Option.some.inj (hna.newest_head.symm.trans hm)
  have hnb' : hnb.newest = n := Option.some.inj (hnb.newest_head.symm.trans hn)
  have h₁ := hna.not_future
  have h₂ := hna.not_expired
  have h₃ := hnb.not_future
  have h₄ := hnb.not_expired
  rw [hma] at h₁ h₂
  rw [hnb', ← hheight] at h₃ h₄
  omega

namespace Sample

/-- A hundred slots later. -/
def laterSlot : SlotHash := ⟨349863101, ⟨List.replicate 32 0x55, rfl⟩⟩

def laterCall : Call := executeWith external passkey [laterSlot, slot] executeSignature 0

theorem laterCall_accepts : laterCall.Accepts .solana ledger := by
  rw [← executeRecorded.host_eq]
  decide +kernel

theorem acceptances_laterCall : Ledger.acceptances .solana ledger
    [.call executeCall, .call laterCall] = [(ledger, executeCall), (ledger, laterCall)] := by
  simp only [Ledger.acceptances, trace, step_executeCall]
  simp [Ledger.acceptance, executeCall_accepts, laterCall_accepts]

theorem laterCall_strings : laterCall.strings .solana ledger = executeCall.strings .solana ledger := by
  rw [← executeRecorded.host_eq]
  decide +kernel

theorem consistentSlotHashes :
    ConsistentSlotHashes [.call executeCall, .call laterCall] := by
  have hmem : ∀ c, .call c ∈ [Event.call executeCall, .call laterCall] →
      c.rt.slotHashes = [slot] ∨ c.rt.slotHashes = [laterSlot, slot] := by
    intro c hc
    simp only [List.mem_cons, List.not_mem_nil, or_false, Event.call.injEq] at hc
    rcases hc with rfl | rfl
    · exact .inl rfl
    · exact .inr rfl
  refine ⟨fun c hc => ?_, fun c c' hc hc' => ?_⟩
  · rcases hmem c hc with h | h <;> rw [h] <;> decide
  · rcases hmem c hc with h | h <;> rcases hmem c' hc' with h' | h' <;> rw [h, h'] <;> decide

end Sample

theorem message_expires_later : ((Sample.slot.height.toNat : Int) -
    Sample.laterSlot.height.toNat).natAbs < 150 := by
  have hp : (Sample.ledger, Sample.executeCall) ∈ Ledger.acceptances .solana Sample.ledger
      [.call Sample.executeCall, .call Sample.laterCall] := by
    rw [Sample.acceptances_laterCall]
    exact List.mem_cons_self
  have hq : (Sample.ledger, Sample.laterCall) ∈ Ledger.acceptances .solana Sample.ledger
      [.call Sample.executeCall, .call Sample.laterCall] := by
    rw [Sample.acceptances_laterCall]
    exact List.mem_cons_of_mem _ List.mem_cons_self
  obtain ⟨a⟩ := Sample.executeCall_accepts.accepted
  have hs := a.acceptance.verification.presented
  refine message_expires Sample.consistentSlotHashes hp hq hs hs rfl ?_ rfl rfl
  rw [Sample.laterCall_strings]
  exact Sample.executeCall_collisionFree.mono (by simp)

end ExternalSignature
