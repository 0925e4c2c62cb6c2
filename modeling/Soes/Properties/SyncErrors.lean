import Mathlib.Algebra.Order.Ring.Int
import Mathlib.Data.List.Infix
import Soes.Framework.FlooredCounter
import Soes.Properties.SlaveRefinement
import Soes.Stack.RegisterFile

/-!
# Sync error counting

`ecat_slv_sync0_account` counts 3 for a SYNC0 period without process data and takes 1 back for one
with, never below zero.  So `synccounter` is the greatest of the values 3 × missed − served over the
suffixes of the calls since the last trip, as long as the 16 bits it is stored in can hold it
(`sync_policy_iff`): the limit is an unsigned 16 bit number the master may set to any value, and the
counter a signed one.
-/

namespace Soes

open Program

variable {σ : Type} {sys : System σ} {n : ℕ} {w : World σ}

/-! ## The policy -/

/-- 3 × missed − served, of the calls in a list; a call that was served is `true`. -/
def syncRate (calls : List Bool) : ℤ := 3 * (calls.count false : ℤ) - calls.count true

/-- The rates of the suffixes of a list of calls, the empty one included. -/
def suffixRates (calls : List Bool) : Set ℤ := {r | ∃ t, t <:+ calls ∧ syncRate t = r}

/-- The rate of some suffix is above the limit. -/
def overLimit (limit : Word) (calls : List Bool) : Bool :=
  calls.tails.any fun t => decide ((limit.toNat : ℤ) < syncRate t)

/-- The calls since the last trip: a call trips when the greatest rate first exceeds the limit. -/
def sinceTrip (limit : Word) (calls : List Bool) : List Bool :=
  calls.foldl (fun since seen => if overLimit limit (since ++ [seen]) then [] else since ++ [seen])
    []

lemma sinceTrip_concat (limit : Word) (calls : List Bool) (seen : Bool) :
    sinceTrip limit (calls ++ [seen]) =
      if overLimit limit (sinceTrip limit calls ++ [seen]) then []
      else sinceTrip limit calls ++ [seen] := by
  rw [sinceTrip, List.foldl_append]
  rfl

/-- What one call counts. -/
def syncWeight (seen : Bool) : ℤ := if seen then -1 else 3

lemma syncRate_cons (seen : Bool) (calls : List Bool) :
    syncRate (seen :: calls) = syncWeight seen + syncRate calls := by
  cases seen
  · have hmissed : (false :: calls).count false = calls.count false + 1 := List.count_cons_self
    have hserved : (false :: calls).count true = calls.count true :=
      List.count_cons_of_ne (by decide)
    rw [syncRate, syncRate, hmissed, hserved, show syncWeight false = 3 from rfl]
    omega
  · have hmissed : (true :: calls).count false = calls.count false :=
      List.count_cons_of_ne (by decide)
    have hserved : (true :: calls).count true = calls.count true + 1 := List.count_cons_self
    rw [syncRate, syncRate, hmissed, hserved, show syncWeight true = -1 from rfl]
    omega

lemma sum_syncWeight (calls : List Bool) : (calls.map syncWeight).sum = syncRate calls := by
  induction calls with
  | nil => rfl
  | cons seen calls ih => rw [List.map_cons, List.sum_cons, ih, syncRate_cons]

lemma suffixRates_eq (calls : List Bool) :
    suffixRates calls = suffixSums (calls.map syncWeight) := by
  ext r
  constructor
  · rintro ⟨t, ht, rfl⟩
    exact ⟨t.map syncWeight, ht.map _, sum_syncWeight t⟩
  · rintro ⟨s, hs, rfl⟩
    obtain ⟨t, ht, rfl⟩ := List.suffix_map_iff.mp hs
    exact ⟨t, ht, (sum_syncWeight t).symm⟩

/-- One more call. -/
lemma isGreatest_suffixRates_concat {calls : List Bool} {c : ℤ}
    (h : IsGreatest (suffixRates calls) c) (seen : Bool) :
    IsGreatest (suffixRates (calls ++ [seen])) (countSync c seen) := by
  rw [suffixRates_eq] at h
  have hnonneg := h.suffixSums_nonneg
  have hcount : countSync c seen = max 0 (c + syncWeight seen) := by
    cases seen
    · simp only [countSync, syncWeight, Bool.false_eq_true, if_false]
      omega
    · simp only [countSync, syncWeight, if_true]
      split <;> omega
  rw [suffixRates_eq, List.map_append, hcount]
  exact isGreatest_suffixSums_concat h _

lemma isGreatest_suffixRates_nil : IsGreatest (suffixRates []) 0 := by
  rw [suffixRates_eq]
  exact isGreatest_suffixSums_nil

/-- The greatest rate decides whether the limit is exceeded. -/
lemma overLimit_iff {limit : Word} {calls : List Bool} {c : ℤ}
    (h : IsGreatest (suffixRates calls) c) :
    overLimit limit calls = true ↔ (limit.toNat : ℤ) < c := by
  simp only [overLimit, List.any_eq_true, List.mem_tails, decide_eq_true_eq]
  constructor
  · rintro ⟨t, ht, hlt⟩
    exact lt_of_lt_of_le hlt (h.2 ⟨t, ht, rfl⟩)
  · intro hlt
    obtain ⟨t, ht, hrate⟩ := h.1
    exact ⟨t, ht, by rw [hrate]; exact hlt⟩

/-! ## One call -/

/-- The state after a call that does not trip. -/
def World.countSync0 (w : World σ) (seen : Bool) : World σ :=
  { w with al := { w.al with
      smeventmissed :=
        if seen = false ∧ w.al.smeventmissed < 0xFFFF then w.al.smeventmissed + 1
        else w.al.smeventmissed
      synccounter := (countSync w.al.synccounter seen).bmod (2 ^ 16) } }

/-- The variables of the counting are the same. -/
structure SameSync (w w' : World σ) : Prop where
  counter : w'.al.synccounter = w.al.synccounter
  limit : w'.al.synccounterlimit = w.al.synccounterlimit
  missed : w'.al.smeventmissed = w.al.smeventmissed
  syncerror : w'.al.syncerror = w.al.syncerror

instance : Std.Refl (SameSync (σ := σ)) := ⟨fun _ => ⟨rfl, rfl, rfl, rfl⟩⟩

instance : IsTrans (World σ) SameSync where
  trans _ _ _ h h' := ⟨h'.counter.trans h.counter, h'.limit.trans h.limit,
    h'.missed.trans h.missed, h'.syncerror.trans h.syncerror⟩

lemma onBus_keepsSync {α : Type} (m : OnBus σ α) : Keeps SameSync (onBus m) :=
  .within (fun _ _ => ⟨rfl, rfl, rfl, rfl⟩) _ m

lemma callStateChangeHook_keepsSync (hook : Option (σ → Byte → Byte → σ × Byte × Byte))
    (as an : Byte) : Keeps (SameSync (σ := σ)) (callStateChangeHook hook as an) := by
  cases hook with
  | none => exact .pure _
  | some call => exact .transact fun _ _ => ⟨rfl, rfl, rfl, rfl⟩

lemma escStopoutput_keepsSync : Keeps (SameSync (σ := σ)) escStopoutput := by
  have hook : ∀ hook : Option (AppCall σ), Keeps (SameSync (σ := σ)) (callHook hook) := by
    intro hook
    cases hook with
    | none => exact .pure _
    | some call => exact .modify fun _ => ⟨rfl, rfl, rfl, rfl⟩
  exact .bind (.modify fun _ => ⟨rfl, rfl, rfl, rfl⟩) fun _ => (onBus_keepsSync _).bind fun _ =>
    .bind (.modify fun _ => ⟨rfl, rfl, rfl, rfl⟩) fun _ => .ask_bind fun _ => hook _

/-- `ESC_ALstatusgotoerror` raises the error, and leaves the counting alone. -/
lemma escALstatusgotoerror_raises {status : Byte} (hop : status &&& escOp = 0)
    (errornumber : Word) : wlp sys n (escALstatusgotoerror status errornumber) (fun _ w' =>
      SameSync w w' ∧ w'.al.alError = errornumber ∧ w'.al.alStatus = status.setWidth 16) w := by
  rw [escALstatusgotoerror, if_neg (not_not.mpr hop), wlp_ask_bind, wlp_get_bind]
  refine (callStateChangeHook_keepsSync _ _ _ sys n w).bind fun p w₁ h₁ => ?_
  rw [wlp_get_bind]
  refine (Keeps.when escStopoutput_keepsSync sys n w₁).bind fun _ w₂ h₂ => ?_
  have h := IsTrans.trans w w₁ w₂ h₁ h₂
  rw [wlp_bind, wlp_modifyAl]
  have raised : wlp sys n (escALerror errornumber) (fun _ w' =>
      SameSync w w' ∧ w'.al.alError = errornumber)
      { w₂ with al := { w₂.al with opPending := false } } := by
    rw [escALerror, wlp_bind, wlp_modifyAl, wlp_within]
    exact fun _ _ _ => ⟨⟨h.counter, h.limit, h.missed, h.syncerror⟩, rfl⟩
  refine raised.bind fun _ w₃ hthen => ?_
  obtain ⟨h₃, herror⟩ := hthen
  have shown : wlp sys n (escALstatus status) (fun _ w' => SameSync w w' ∧
      w'.al.alError = errornumber ∧ w'.al.alStatus = status.setWidth 16) w₃ := by
    rw [escALstatus, wlp_bind, wlp_modifyAl, wlp_within]
    exact fun _ _ _ => ⟨⟨h₃.counter, h₃.limit, h₃.missed, h₃.syncerror⟩, herror, rfl⟩
  refine shown.bind fun _ w₄ hthen => ?_
  obtain ⟨h₄, herror₄, hstatus⟩ := hthen
  cases sys.cfg.postStateChangeHook with
  | none =>
      rw [callStateChangeHook, wlp_bind, wlp_pure, wlp_pure]
      exact ⟨h₄, herror₄, hstatus⟩
  | some call =>
      rw [callStateChangeHook, wlp_bind, wlp_transact, wlp_pure]
      exact ⟨⟨h₄.counter, h₄.limit, h₄.missed, h₄.syncerror⟩, herror₄, hstatus⟩

/-- A call that trips: the error is flagged, the count is reset, and the slave goes to SAFEOP with
the AL status code of a sync error. -/
structure World.SyncTripped (w : World σ) : Prop where
  syncerror : w.al.syncerror = true
  counter : w.al.synccounter = 0
  error : w.al.alError = alerrSyncerror
  status : w.al.alStatus = (escSafeop ||| escError).setWidth 16

/-- What a call does. -/
lemma ecatSlvSync0Account_counts (seen : Bool) :
    wlp sys n (ecatSlvSync0Account seen) (fun _ w' =>
      w'.al.synccounterlimit = w.al.synccounterlimit ∧
      w'.al.smeventmissed = (w.countSync0 seen).al.smeventmissed ∧
      (w.sync0Trips seen → w'.SyncTripped) ∧
      (¬ w.sync0Trips seen → w' = w.countSync0 seen)) w := by
  rw [ecatSlvSync0Account, wlp_get_bind, wlp_bind, wlp_modifyAl, wlp_get_bind]
  refine wlp.when (fun htrip => ?_) fun hpass => ⟨rfl, rfl, fun htrip => (hpass htrip).elim,
    fun _ => rfl⟩
  rw [wlp_bind, wlp_modifyAl]
  refine (escALstatusgotoerror_raises (by decide) _).mono fun _ w' hthen => ?_
  obtain ⟨hsame, herror, hstatus⟩ := hthen
  exact ⟨hsame.limit, hsame.missed, fun _ => ⟨hsame.syncerror, hsame.counter, herror, hstatus⟩,
    fun hpass => (hpass htrip).elim⟩

/-- A call that does not trip finishes. -/
lemma ecatSlvSync0Account_passes {seen : Bool} (hpass : ¬ w.sync0Trips seen) :
    ecatSlvSync0Account seen sys n w = .ok () (w.countSync0 seen) := by
  have hrun : wp sys n (ecatSlvSync0Account seen) (fun _ w' => w' = w.countSync0 seen) w := by
    rw [ecatSlvSync0Account, wp_bind, wp_get, wp_bind, modifyAl, wp_modify, wp_bind, wp_get]
    exact (wp_when _ _ _).mpr ⟨fun htrip => (hpass htrip).elim, fun _ => rfl⟩
  obtain ⟨_, w', hrun, rfl⟩ := hrun
  exact hrun

/-! ## Runs -/

/-- A step of a run: a call, which is added to the list, or anything else that leaves the counting
alone. -/
def SyncStep (sys : System σ) (s : World σ × List Bool) (l : Option (ℕ × Bool))
    (s' : World σ × List Bool) : Prop :=
  match l with
  | some (k, seen) => Stack.Step sys s.1 (k, .sync0Account seen) s'.1 ∧ s'.2 = s.2 ++ [seen]
  | none => SameSync s.1 s'.1 ∧ s'.2 = s.2

/-- The states that are reached from cleared counters, with the calls so far. -/
def SyncReached (sys : System σ) (limit : Word) (s : World σ × List Bool) : Prop :=
  Reachable (fun s => s.1.al.synccounterlimit = limit ∧ s.1.al.synccounter = 0 ∧
    s.1.al.smeventmissed = 0 ∧ s.2 = []) (SyncStep sys) (fun _ _ => True) s

/-- The counters count the calls. -/
structure SyncCounted (limit : Word) (w : World σ) (calls : List Bool) : Prop where
  nonneg : 0 ≤ w.al.synccounter
  greatest : IsGreatest (suffixRates (sinceTrip limit calls)) w.al.synccounter
  /-- `smeventmissed` counts the missed calls, up to the largest 16 bit number. -/
  missed : w.al.smeventmissed.toNat = min (calls.count false) 65535

/-- The +3/−1 rate policy, with a limit. -/
structure SyncPolicy (sys : System σ) (limit : Word) : Prop where
  counted : ∀ s, SyncReached sys limit s → SyncCounted limit s.1 s.2
  /-- A call trips if the greatest rate exceeds the limit. -/
  trips : ∀ s k seen s', SyncReached sys limit s → SyncStep sys s (some (k, seen)) s' →
    overLimit limit (sinceTrip limit s.2 ++ [seen]) = true → s'.1.SyncTripped
  passes : ∀ s k seen s', SyncReached sys limit s → SyncStep sys s (some (k, seen)) s' →
    overLimit limit (sinceTrip limit s.2 ++ [seen]) = false → s'.1 = s.1.countSync0 seen

/-- What a run has counted, with its limit. -/
structure SyncInvariant (limit : Word) (s : World σ × List Bool) : Prop
    extends SyncCounted limit s.1 s.2 where
  limit_eq : s.1.al.synccounterlimit = limit

/-- While the counter fits, a call trips exactly if the policy says so. -/
lemma SyncInvariant.trips_iff {limit : Word} {s : World σ × List Bool} (h : SyncInvariant limit s)
    (hlimit : limit ≠ 0) (seen : Bool) :
    s.1.sync0Trips seen ↔ overLimit limit (sinceTrip limit s.2 ++ [seen]) = true := by
  rw [overLimit_iff (isGreatest_suffixRates_concat h.greatest seen), World.sync0Trips, h.limit_eq]
  exact and_iff_right hlimit

lemma SyncInvariant.step {limit : Word} (hlimit : limit ≠ 0) (hfits : limit.toNat ≤ 32767)
    {s s' : World σ × List Bool} {l : Option (ℕ × Bool)} (h : SyncInvariant limit s)
    (hstep : SyncStep sys s l s') : SyncInvariant limit s' := by
  cases l with
  | none =>
      obtain ⟨hsame, hcalls⟩ := hstep
      refine ⟨⟨?_, ?_, ?_⟩, ?_⟩
      · rw [hsame.counter]
        exact h.nonneg
      · rw [hsame.counter, hcalls]
        exact h.greatest
      · rw [hsame.missed, hcalls]
        exact h.missed
      · rw [hsame.limit]
        exact h.limit_eq
  | some l =>
      obtain ⟨k, seen⟩ := l
      obtain ⟨hrun, hcalls⟩ := hstep
      obtain ⟨hlim, hmissed, htrip, hpass⟩ := ecatSlvSync0Account_counts seen () s'.1 hrun
      have hgreatest := isGreatest_suffixRates_concat h.greatest seen
      have hcount : s'.1.al.smeventmissed.toNat = min (s'.2.count false) 65535 := by
        have hold := h.missed
        rw [hmissed, hcalls, List.count_append]
        simp only [World.countSync0]
        cases seen with
        | true => simpa using hold
        | false =>
            have hone : List.count false [false] = 1 := rfl
            rw [hone]
            by_cases hroom : s.1.al.smeventmissed < 0xFFFF
            · rw [if_pos ⟨rfl, hroom⟩]
              bv_omega
            · rw [if_neg fun hyes => hroom hyes.2]
              bv_omega
      have htrips := h.trips_iff hlimit seen
      by_cases hover : s.1.sync0Trips seen
      · have htripped := htrip hover
        refine ⟨⟨?_, ?_, hcount⟩, hlim.trans h.limit_eq⟩
        · rw [htripped.counter]
        · rw [htripped.counter, hcalls, sinceTrip_concat, if_pos (htrips.mp hover)]
          exact isGreatest_suffixRates_nil
      · have hle : countSync s.1.al.synccounter seen ≤ limit.toNat := by
          rw [← not_lt]
          intro hlt
          refine hover ⟨by rw [h.limit_eq]; exact hlimit, ?_⟩
          rw [h.limit_eq]
          exact hlt
        have hnonneg : 0 ≤ countSync s.1.al.synccounter seen := by
          rw [suffixRates_eq] at hgreatest
          exact hgreatest.suffixSums_nonneg
        have hstored : s'.1.al.synccounter = countSync s.1.al.synccounter seen := by
          rw [hpass hover]
          exact Int.bmod_eq_of_le (by omega) (by omega)
        refine ⟨⟨?_, ?_, hcount⟩, hlim.trans h.limit_eq⟩
        · rw [hstored]
          exact hnonneg
        · rw [hstored, hcalls, sinceTrip_concat, if_neg fun hyes => hover (htrips.mpr hyes)]
          exact hgreatest

lemma SyncReached.invariant {limit : Word} (hlimit : limit ≠ 0) (hfits : limit.toNat ≤ 32767)
    {s : World σ × List Bool} (h : SyncReached sys limit s) : SyncInvariant limit s := by
  refine Reachable.invariant (P := SyncInvariant limit) (fun s hs => ?_)
    (fun _ _ _ hinv _ hstep => hinv.step hlimit hfits hstep) h
  obtain ⟨hlim, hcounter, hmissed, hcalls⟩ := hs
  refine ⟨⟨?_, ?_, ?_⟩, hlim⟩
  · rw [hcounter]
  · rw [hcounter, hcalls]
    exact isGreatest_suffixRates_nil
  · rw [hmissed, hcalls]
    rfl

/-! ## Limits the counter cannot reach -/

/-- The state that a run starts in. -/
def syncStart (o : σ) (limit : Word) : World σ :=
  let w := World.zeroed o 0 fun _ => 0
  { w with al := { w.al with synccounterlimit := limit } }

/-- A call that does not trip is taken. -/
lemma SyncReached.pass {limit : Word} {s : World σ × List Bool} (h : SyncReached sys limit s)
    {seen : Bool} (hpass : ¬ s.1.sync0Trips seen) :
    SyncReached sys limit (s.1.countSync0 seen, s.2 ++ [seen]) :=
  .next h (l := some (0, seen)) trivial ⟨ecatSlvSync0Account_passes hpass, rfl⟩

/-- After some missed calls below the limit. -/
lemma syncReached_missed (o : σ) {limit : Word} (hlarge : 32767 < limit.toNat) (k : ℕ)
    (hk : k ≤ 10922) : ∃ s, SyncReached sys limit s ∧ s.1.al.synccounterlimit = limit ∧
      s.1.al.synccounter = 3 * k := by
  induction k with
  | zero => exact ⟨(syncStart o limit, []), .start ⟨rfl, rfl, rfl, rfl⟩, rfl, rfl⟩
  | succ k ih =>
      obtain ⟨s, hs, hlimit, hcounter⟩ := ih (by omega)
      have hpass : ¬ s.1.sync0Trips false := by
        rintro ⟨-, hlt⟩
        rw [hlimit, hcounter] at hlt
        simp only [countSync, Bool.false_eq_true, if_false] at hlt
        omega
      refine ⟨_, hs.pass hpass, hlimit, ?_⟩
      simp only [World.countSync0, countSync, Bool.false_eq_true, if_false, hcounter]
      rw [Int.bmod_eq_of_le (by omega) (by omega)]
      omega

/-- With a limit above the largest 16 bit signed number the counter wraps. -/
lemma syncReached_wrapped (o : σ) {limit : Word} (hlarge : 32767 < limit.toNat) :
    ∃ s, SyncReached sys limit s ∧ s.1.al.synccounter < 0 := by
  obtain ⟨s, hs, hlimit, hmissed⟩ := @syncReached_missed σ sys o limit hlarge 10922 (le_refl _)
  have hcounter : s.1.al.synccounter = 32766 := by omega
  have hserved : ¬ s.1.sync0Trips true := by
    rintro ⟨-, hlt⟩
    rw [hlimit, hcounter, show countSync 32766 true = 32765 by decide] at hlt
    omega
  have hcounter' : (s.1.countSync0 true).al.synccounter = 32765 := by
    simp only [World.countSync0, hcounter]
    decide
  have hmissed' : ¬ (s.1.countSync0 true).sync0Trips false := by
    rintro ⟨-, hlt⟩
    rw [hcounter', show (s.1.countSync0 true).al.synccounterlimit = limit from hlimit,
      show countSync 32765 false = 32768 by decide] at hlt
    omega
  refine ⟨_, (hs.pass hserved).pass hmissed', ?_⟩
  change (countSync (s.1.countSync0 true).al.synccounter false).bmod (2 ^ 16) < 0
  rw [hcounter']
  decide

/-- **The counting is the +3/−1 policy exactly if the counter can reach the limit.** -/
theorem sync_policy_iff [Inhabited σ] {limit : Word} (hlimit : limit ≠ 0) :
    SyncPolicy sys limit ↔ limit.toNat ≤ 32767 := by
  constructor
  · intro hpolicy
    by_contra hlarge
    obtain ⟨s, hs, hneg⟩ := @syncReached_wrapped σ sys default limit (not_le.mp hlarge)
    exact absurd (hpolicy.counted s hs).nonneg (not_le.mpr hneg)
  · intro hfits
    constructor
    case counted => exact fun s hs => (hs.invariant hlimit hfits).toSyncCounted
    case trips =>
      intro s k seen s' hs hstep hover
      obtain ⟨-, -, htrip, -⟩ := ecatSlvSync0Account_counts seen () s'.1 hstep.1
      exact htrip (((hs.invariant hlimit hfits).trips_iff hlimit seen).mpr hover)
    case passes =>
      intro s k seen s' hs hstep hover
      obtain ⟨-, -, -, hpass⟩ := ecatSlvSync0Account_counts seen () s'.1 hstep.1
      refine hpass fun htrip => ?_
      rw [((hs.invariant hlimit hfits).trips_iff hlimit seen).mp htrip] at hover
      cases hover

/-- A limit of four missed periods. -/
theorem sync_policy_example : SyncPolicy exampleSystem 12 :=
  haveI : Inhabited ByteStore := ⟨fun _ => 0⟩
  (sync_policy_iff (by decide)).mpr (by decide)

/-- A limit of 32768 is not kept: the count wraps to a negative number. -/
theorem sync_policy_wraps : ¬ ∀ limit : Word, limit ≠ 0 → SyncPolicy exampleSystem limit := by
  intro h
  obtain ⟨s, hs, hneg⟩ : ∃ s, SyncReached exampleSystem 32768 s ∧ s.1.al.synccounter < 0 :=
    syncReached_wrapped (fun _ => 0) (by decide)
  exact absurd ((h 32768 (by decide)).counted s hs).nonneg (not_le.mpr hneg)

end Soes
