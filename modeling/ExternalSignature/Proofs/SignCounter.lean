import ExternalSignature.Proofs.Replay
import ExternalSignature.Proofs.Session

/-!
# The sign counter

The sign counts of the messages that an account accepts are to increase from the first one that is
not zero, and the account is to store the last one (`CounterLaw`). A count of zero is not compared
with the stored one, so the law holds of the runs in which no call presents a count of zero to an
account that stores another one (`sign_counter`).
-/

namespace ExternalSignature

open Lib

variable {host : Host}

/-! ## Accepted counts -/

namespace Ledger

/-- The sign count of the message that an event has accepted for the account at `key`. -/
def acceptedCount (host : Host) (key : Pubkey) (l : Ledger) : Event → Option UInt32
  | .call c =>
    if c.Accepts host l ∧ c.external = some key then c.rt.instructions.signCount.toOption else none
  | _ => none

/-- The sign counts that a run has accepted, in their order. -/
def signCounts (host : Host) (key : Pubkey) (start : Ledger) (es : List Event) : List UInt32 :=
  (trace (step host) start es).filterMap fun p => p.1.acceptedCount host key p.2

theorem signCounts_cons (host : Host) (key : Pubkey) (start : Ledger) (e : Event)
    (es : List Event) : signCounts host key start (e :: es) =
      (start.acceptedCount host key e).toList ++ signCounts host key (start.step host e) es := by
  unfold signCounts
  rw [trace, List.filterMap_cons]
  cases h : start.acceptedCount host key e <;> rfl

theorem signCounts_snoc (host : Host) (key : Pubkey) (start : Ledger) (es : List Event)
    (e : Event) : signCounts host key start (es ++ [e]) = signCounts host key start es ++
      ((run (step host) start es).acceptedCount host key e).toList := by
  unfold signCounts
  rw [trace_append, List.filterMap_append]
  cases h : (run (step host) start es).acceptedCount host key e <;> simp [trace, h]

theorem acceptedCount_eq_some {l : Ledger} {key : Pubkey} {e : Event} {count : UInt32}
    (h : l.acceptedCount host key e = some count) : ∃ c, e = .call c ∧ c.Accepts host l ∧
      c.external = some key ∧ c.rt.instructions.signCount = .ok count := by
  cases e with
  | call c =>
    simp only [acceptedCount, Option.ite_none_right_eq_some] at h
    obtain ⟨⟨ha, hk⟩, hc⟩ := h
    exact ⟨c, rfl, ha, hk, toOption_eq_some.mp hc⟩
  | assign => cases h
  | foreign => cases h

end Ledger

theorem Call.Accepts.acceptedCount {l : Ledger} {c : Call} {key : Pubkey} {count : UInt32}
    (h : c.Accepts host l) (hk : c.external = some key)
    (hc : c.rt.instructions.signCount = .ok count) :
    l.acceptedCount host key (.call c) = some count := by
  simp only [Ledger.acceptedCount, if_pos (And.intro h hk)]
  exact toOption_eq_some.mpr hc

namespace Ledger

/-- The presented count exceeds a stored one that is not zero, the counts increase from the first
one that is not zero, and at any time the last one is stored. -/
structure CounterLaw (host : Host) (key : Pubkey) (start : Ledger) (es : List Event) : Prop where
  greater : ∀ p ∈ trace (step host) start es, ∀ data, p.1.Holds key data → data.counter ≠ 0 →
    ∀ count ∈ p.1.acceptedCount host key p.2, data.counter < count.toUInt64
  increasing : (signCounts host key start es).Pairwise fun a b => a ≠ 0 → a < b
  stored : ∀ before, before <+: es → ∀ data, Holds (run (step host) start before) key data →
    data.counter = ((signCounts host key start before).getLast?.getD 0).toUInt64

end Ledger

/-! ## One step -/

/-- What a successful call makes of the counter of its account. -/
inductive CounterEffect (l : Ledger) (c : Call) (key : Pubkey) (now : UInt64) : Prop where
  | created (kind : c.data.head? ≠ some 3) (count : UInt32)
      (signCount : c.rt.instructions.signCount = .ok count) (unowned : (l key).owner ≠ ID)
      (now_eq : now = count.toUInt64)
  | presented (kind : c.data.head? ≠ some 3) (count : UInt32)
      (signCount : c.rt.instructions.signCount = .ok count) (before : P256WebauthnAccountData)
      (holds : l.Holds key before) (fresh : count ≠ 0 → before.counter < count.toUInt64)
      (now_eq : now = if count = 0 then before.counter else count.toUInt64)
  | kept (kind : c.data.head? = some 3) (before : P256WebauthnAccountData)
      (holds : l.Holds key before) (now_eq : now = before.counter)

theorem Verification.counter_after {before after : P256WebauthnAccountData} {ixs : Instructions}
    {params : ClientDataJsonReconstructionParams} {payload : Bytes}
    (v : Verification host before ixs params payload after) :
    after.counter = if v.count = 0 then before.counter else v.count.toUInt64 := by
  refine (congrArg P256WebauthnAccountData.counter v.after_eq).trans ?_
  split <;> rfl

theorem Acceptance.signCount {rt : Runtime} {nonceSigner : AccountInfo} {challenge : Challenge}
    {before after : P256WebauthnAccountData}
    (a : Acceptance host rt nonceSigner challenge before after) :
    rt.instructions.signCount = .ok a.verification.count :=
  bind_eq_ok.mpr ⟨_, a.verification.presented, a.verification.signCount⟩

theorem Success.counterEffect {l : Ledger} {c : Call} {left : AccountInfo}
    (h : Success host c.rt (c.infos l) c.data left) :
    ∃ after, Initialized left.data after ∧ CounterEffect l c left.key after.counter := by
  generalize hdata : c.data = ixData at h
  cases h with
  | init run =>
    have hmem := Call.info_of_head run.accounts_eq
    have hfields := run.acceptance.verification.after_fields
    have hcounter := run.acceptance.verification.counter_after
    rw [run.left_eq]
    refine ⟨run.after,
      run.initialized.write hfields.1, .created (by simp [hdata]) _ run.acceptance.signCount ?_ ?_⟩
    · rw [← hmem.1, run.uninitialized.1]
      exact id_ne_system.symm
    · rw [hcounter, run.counter]
      split
      · rename_i hzero
        rw [hzero]
        rfl
      · rfl
  | execute run =>
    have hmem := Call.info_of_head run.accounts_eq
    have hfields := run.acceptance.verification.after_fields
    exact ⟨run.after,
      run.initialized.write hfields.1, .presented (by simp [hdata]) _ run.acceptance.signCount
        run.before ⟨hmem.1.symm.trans run.owner, hmem.2 ▸ run.initialized⟩
        run.acceptance.verification.fresh run.acceptance.verification.counter_after⟩
  | refresh run =>
    have hmem := Call.info_of_head run.accounts_eq
    have hfields := run.acceptance.verification.after_fields
    rw [run.left_eq]
    refine ⟨run.after,
      run.initialized.write ?_, .presented (by simp [hdata]) _ run.acceptance.signCount
        run.before ⟨hmem.1.symm.trans run.owner, hmem.2 ▸ run.initialized⟩
        run.acceptance.verification.fresh ?_⟩
    · rw [run.after_eq]
      exact hfields.1
    · rw [run.after_eq]
      exact run.acceptance.verification.counter_after
  | sessioned run =>
    have hmem := Call.info_of_head run.accounts_eq
    exact ⟨run.stored, run.initialized,
      .kept (by simp [hdata]) run.stored
        ⟨hmem.1.symm.trans run.owner, hmem.2 ▸ run.initialized⟩ rfl⟩

namespace Ledger

theorem acceptedCount_of_not_writes {l : Ledger} {e : Event} {key : Pubkey}
    (h : ¬l.Writes host key e) : l.acceptedCount host key e = none := by
  rw [Option.eq_none_iff_forall_ne_some]
  intro count hcount
  obtain ⟨c, rfl, ha, hk, -⟩ := acceptedCount_eq_some hcount
  obtain ⟨a⟩ := ha.accepted
  exact h ⟨c, a.left, rfl, a.process_ok, Option.some.inj (a.external.symm.trans hk)⟩

/-- An accepted count that is not zero exceeds the stored one. -/
theorem lt_acceptedCount {l : Ledger} {e : Event} {key : Pubkey} {count : UInt32}
    {data : P256WebauthnAccountData} (h : l.acceptedCount host key e = some count)
    (hd : l.Holds key data) (hne : count ≠ 0) : data.counter < count.toUInt64 := by
  obtain ⟨c, rfl, ha, hk, hc⟩ := acceptedCount_eq_some h
  obtain ⟨a⟩ := ha.accepted
  obtain rfl := Option.some.inj (a.external.symm.trans hk)
  obtain rfl := Except.ok.inj (a.signCount.symm.trans hc)
  obtain ⟨-, hb⟩ | ⟨-, hunowned, -⟩ := a.origin
  · obtain rfl := hd.unique hb
    exact a.acceptance.verification.fresh hne
  · exact absurd hd.1 hunowned

/-! ## Runs -/

/-- What the accepted counts of a run say about the account at `key`. -/
structure Counts (l : Ledger) (key : Pubkey) (counts : List UInt32) : Prop where
  held : ∀ data, l.Holds key data → data.counter = (counts.getLast?.getD 0).toUInt64
  bounded : ∀ data, l.Holds key data → ∀ count ∈ counts, count.toUInt64 ≤ data.counter
  unheld : (∀ data, ¬l.Holds key data) → counts = []
  increasing : counts.Pairwise fun a b => a ≠ 0 → a < b

/-- A call of initialize, execute or refresh on the account at `key` does not present a count of zero
where the account stores another one. -/
def NoZero (key : Pubkey) (l : Ledger) : Event → Prop
  | .call c => c.data.head? ≠ some 3 → c.external = some key → ∀ data, l.Holds key data →
    data.counter ≠ 0 → c.rt.instructions.signCount ≠ .ok 0
  | _ => True

theorem counts_snoc {l l' : Ledger} {key : Pubkey} {counts : List UInt32} {count : UInt32}
    {before after : P256WebauthnAccountData} (h : l.Counts key counts)
    (hbefore : l.Holds key before) (hafter : l'.Holds key after)
    (hlt : count ≠ 0 → before.counter < count.toUInt64) (hzero : count = 0 → before.counter = 0)
    (hcounter : after.counter = if count = 0 then before.counter else count.toUInt64) :
    l'.Counts key (counts ++ [count]) := by
  have hstored : after.counter = count.toUInt64 := by
    rw [hcounter]
    split
    · rename_i hz
      rw [hzero hz, hz]
      rfl
    · rfl
  have hle : before.counter ≤ after.counter := by
    rw [hcounter]
    split
    · exact UInt64.le_refl _
    · exact UInt64.le_of_lt (hlt ‹_›)
  refine ⟨fun data hd => ?_, fun data hd a ha => ?_, fun hd => absurd hafter (hd after), ?_⟩
  · obtain rfl := hd.unique hafter
    rw [hstored, List.getLast?_concat, Option.getD_some]
  · obtain rfl := hd.unique hafter
    rcases List.mem_append.mp ha with ha | ha
    · exact UInt64.le_trans (h.bounded before hbefore a ha) hle
    · rw [List.mem_singleton.mp ha, hstored]
      exact UInt64.le_refl _
  · refine List.pairwise_append.mpr ⟨h.increasing, List.pairwise_singleton _ _, ?_⟩
    intro a ha b hb hne
    rw [List.mem_singleton.mp hb]
    have hbound := h.bounded before hbefore a ha
    -- the earlier count is stored or exceeded, so the new one is not zero
    have hpos : count ≠ 0 := by
      intro hz
      rw [hzero hz] at hbound
      exact hne (UInt32.toUInt64_inj.mp (UInt64.le_zero_iff.mp hbound))
    exact UInt32.toUInt64_lt.mp (UInt64.lt_of_le_of_lt hbound (hlt hpos))

theorem counts_step {l : Ledger} {key : Pubkey} {counts : List UInt32} {e : Event}
    (h : l.Counts key counts) (hzero : NoZero key l e) :
    (l.step host e).Counts key (counts ++ (l.acceptedCount host key e).toList) := by
  by_cases hw : l.Writes host key e
  · obtain ⟨c, left, rfl, hr, rfl, hstep⟩ := hw.holds
    have hext := (Call.process_ok hr).external
    obtain ⟨after, hi, heffect⟩ := (Call.process_ok hr).counterEffect
    have hafter := hstep after hi
    have haccepted : ∀ count, c.data.head? ≠ some 3 → c.rt.instructions.signCount = .ok count →
        l.acceptedCount host left.key (.call c) = some count := by
      intro count hkind hcount
      have hok : c.Accepts host l := ⟨hkind, by rw [hr]; rfl⟩
      exact hok.acceptedCount hext hcount
    cases heffect with
    | created hkind count hcount hunowned hnow =>
      rw [haccepted count hkind hcount, h.unheld fun _ hb => hunowned hb.1]
      refine ⟨fun data hd => ?_, fun data hd a ha => ?_, fun hd => absurd hafter (hd after),
        List.pairwise_singleton _ _⟩
      · obtain rfl := hd.unique hafter
        exact hnow
      · obtain rfl := hd.unique hafter
        rw [List.mem_singleton.mp ha, hnow]
        exact UInt64.le_refl _
    | presented hkind count hcount before hb hfresh hnow =>
      have hsome := haccepted count hkind hcount
      rw [hsome]
      refine counts_snoc h hb hafter hfresh (fun hz => ?_) hnow
      by_contra hne
      exact hzero hkind hext before hb hne (hz ▸ hcount)
    | kept hkind before hb hnow =>
      have hnone : l.acceptedCount host left.key (.call c) = none :=
        if_neg fun ha => ha.1.1 hkind
      rw [hnone, Option.toList_none, List.append_nil]
      refine ⟨fun data hd => ?_, fun data hd a ha => ?_, fun hd => absurd hafter (hd after),
        h.increasing⟩
      · obtain rfl := hd.unique hafter
        rw [hnow]
        exact h.held before hb
      · obtain rfl := hd.unique hafter
        rw [hnow]
        exact h.bounded before hb a ha
  · rw [acceptedCount_of_not_writes hw, Option.toList_none, List.append_nil]
    have hsame {data} : (l.step host e).Holds key data ↔ l.Holds key data :=
      holds_step_of_not_writes hw
    exact ⟨fun data hd => h.held data (hsame.mp hd), fun data hd => h.bounded data (hsame.mp hd),
      fun hd => h.unheld fun data hh => hd data (hsame.mpr hh), h.increasing⟩

theorem Fresh.counts {start : Ledger} (hstart : start.Fresh) (key : Pubkey) {es : List Event}
    (h : ∀ p ∈ trace (step host) start es, NoZero key p.1 p.2) :
    Counts (run (step host) start es) key (signCounts host key start es) := by
  induction es using List.reverseRecOn with
  | nil =>
    exact ⟨fun _ hd => absurd hd.1 (hstart key), fun _ hd => absurd hd.1 (hstart key),
      fun _ => rfl, .nil⟩
  | append_singleton es e ih =>
    rw [trace_append] at h
    rw [run_snoc, signCounts_snoc]
    exact counts_step (ih fun p hp => h p (List.mem_append_left _ hp))
      (h _ (List.mem_append_right _ List.mem_cons_self))

/-- From a ledger without accounts of the program, the counts of an account obey the law if no call
presents a count of zero where the account stores another one; and if the law holds, no call that
does so is accepted. -/
theorem sign_counter {start : Ledger} (hstart : start.Fresh) (key : Pubkey) (es : List Event) :
    ((∀ p ∈ trace (step host) start es, NoZero key p.1 p.2) → CounterLaw host key start es) ∧
    (CounterLaw host key start es → ∀ p ∈ trace (step host) start es, ∀ c, p.2 = .call c →
      c.Accepts host p.1 → NoZero key p.1 p.2) := by
  constructor
  · intro h
    refine ⟨fun p hp data hd hne count hcount => ?_, (hstart.counts key h).increasing, ?_⟩
    · refine lt_acceptedCount hcount hd fun hz => ?_
      obtain ⟨c, hc, ⟨hkind, -⟩, hext, hsign⟩ := acceptedCount_eq_some hcount
      have hzero := h p hp
      rw [hc] at hzero
      exact hzero hkind hext data hd hne (hz ▸ hsign)
    · rintro before ⟨rest, rfl⟩
      rw [trace_append] at h
      exact (hstart.counts key fun p hp => h p (List.mem_append_left _ hp)).held
  · intro h p hp c hc haccepts
    rw [hc]
    intro _ hext data hd hne hsign
    have hcount : p.1.acceptedCount host key p.2 = some 0 := hc ▸ haccepts.acceptedCount hext hsign
    exact absurd (h.greater p hp data hd hne 0 hcount) (UInt64.not_lt.mpr UInt64.zero_le)

end Ledger

/-! ## A cloned authenticator -/

namespace Sample

def counted : P256WebauthnAccountData := { stored with counter := 1 }

def countedLedger : Ledger := Function.update ledger external ⟨ID, (Pod.bytes counted).val⟩

theorem countedCall_ok : (countedCall.process .solana ledger).result =
    .ok ⟨external, false, true, ID, (Pod.bytes counted).val⟩ := by
  rw [← executeRecorded.host_eq]
  decide +kernel

theorem step_countedCall : ledger.step .solana (.call countedCall) = countedLedger := by
  rw [Ledger.step_call_ok countedCall_ok]
  rfl

theorem acceptedCount_initCall :
    genesis.acceptedCount .solana external (.call initCall) = some 0 := by
  have hok : initCall.Accepts .solana genesis := ⟨by decide, by rw [initCall_ok]; rfl⟩
  have hcount : initCall.rt.instructions.signCount = .ok 0 := by decide +kernel
  exact hok.acceptedCount rfl hcount

theorem acceptedCount_countedCall :
    ledger.acceptedCount .solana external (.call countedCall) = some 1 := by
  have hok : countedCall.Accepts .solana ledger := ⟨by decide, by rw [countedCall_ok]; rfl⟩
  have hcount : countedCall.rt.instructions.signCount = .ok 1 := by decide +kernel
  exact hok.acceptedCount rfl hcount

/-- The count zero is accepted where the count one is stored. -/
theorem acceptedCount_executeCall :
    countedLedger.acceptedCount .solana external (.call executeCall) = some 0 := by
  have hok : executeCall.Accepts .solana countedLedger := by
    rw [← executeRecorded.host_eq]
    decide +kernel
  have hcount : executeCall.rt.instructions.signCount = .ok 0 := by decide +kernel
  exact hok.acceptedCount rfl hcount

end Sample

theorem sign_counter_cloned :
    Ledger.signCounts .solana Sample.external Sample.genesis
      [.call Sample.initCall, .call Sample.countedCall, .call Sample.executeCall] = [0, 1, 0] ∧
    ¬Ledger.CounterLaw .solana Sample.external Sample.genesis
      [.call Sample.initCall, .call Sample.countedCall, .call Sample.executeCall] := by
  have hcounts : Ledger.signCounts .solana Sample.external Sample.genesis
      [.call Sample.initCall, .call Sample.countedCall, .call Sample.executeCall] = [0, 1, 0] := by
    rw [Ledger.signCounts_cons, Sample.acceptedCount_initCall, Sample.step_initCall,
      Ledger.signCounts_cons, Sample.acceptedCount_countedCall, Sample.step_countedCall,
      Ledger.signCounts_cons, Sample.acceptedCount_executeCall]
    rfl
  refine ⟨hcounts, fun h => ?_⟩
  have hincreasing := h.increasing
  rw [hcounts] at hincreasing
  exact absurd hincreasing (by decide)

theorem sign_counter_counted : Ledger.CounterLaw .solana Sample.external Sample.genesis
    [.call Sample.initCall, .call Sample.countedCall] := by
  refine (Ledger.sign_counter Sample.genesis_fresh Sample.external _).1 fun p hp => ?_
  simp only [trace, Sample.step_initCall, List.mem_cons, List.not_mem_nil, or_false] at hp
  rcases hp with rfl | rfl
  · exact fun _ _ data hd => absurd hd.1 (Sample.genesis_fresh Sample.external)
  · exact fun _ _ _ _ _ => show Sample.countedCall.rt.instructions.signCount ≠ .ok 0 by decide +kernel

end ExternalSignature
