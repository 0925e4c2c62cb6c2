import Soes.Properties.MbxProcess

/-!
# Completions

The application answers a download that it held back by `ESC_SDO_complete`, which has no argument to
say which one. A run is followed here with a ticket for every download that was held (`Tickets`), in
their order, so that a completion belongs to a ticket, or to a download whose hook asked for a hold
that was refused. Each ticket is completed at most once, at any later time.

A completion answers its own request exactly if no other download is held by then
(`completion_answers_own_iff`): the hold is one slot without a number, and a completion that comes
late answers whatever is in it.
-/

namespace Soes

open Program Mailbox

variable {σ : Type} {sys : DeviceSystem σ}

/-! ## Tickets -/

/-- The downloads that were held, with their index and subindex. -/
structure Tickets where
  issued : List (Word × Byte)
  current : Option ℕ
  settled : List ℕ
  deriving DecidableEq

namespace Tickets

/-- No download was held yet. -/
def none : Tickets := ⟨[], .none, []⟩

/-- The tickets after a call that took the mailboxes from `m` to `m'`: a hold that begins is one for
the request in the inbox. -/
def follow (t : Tickets) (m m' : Mailbox) : Tickets :=
  if m'.sdoHeld.active = false then { t with current := .none }
  else if m.sdoHeld.active then t
  else { t with
    issued := t.issued ++ [(m.sdoIndex, m.sdoSubindex)]
    current := some t.issued.length }

/-- The ticket of a completion is one that was issued and not completed before. -/
def Open (t : Tickets) : Option ℕ → Prop
  | .none => True
  | some n => n < t.issued.length ∧ n ∉ t.settled

instance (t : Tickets) (ticket : Option ℕ) : Decidable (t.Open ticket) := by
  cases ticket <;> unfold Open <;> infer_instance

/-- The tickets after a completion. -/
def settle (t : Tickets) (ticket : Option ℕ) (m m' : Mailbox) : Tickets :=
  { t.follow m m' with settled := ticket.toList ++ t.settled }

/-- The hold is that of the current ticket. -/
structure Fits (t : Tickets) (m : Mailbox) : Prop where
  free : m.sdoHeld.active = false → t.current = .none
  held : m.sdoHeld.active = true → ∃ n, t.current = some n ∧
    t.issued[n]? = some (m.sdoHeld.index, m.sdoHeld.subindex)

end Tickets

/-! ## The hold -/

/-- What a call may do to the hold: leave it, drop it, or hold the download in the inbox. -/
def Mailbox.HoldStep (m m' : Mailbox) : Prop :=
  m'.sdoHeld = m.sdoHeld ∨ m'.sdoHeld.active = false ∨
    m.sdoHeld.active = false ∧ m'.sdoHeld = ⟨true, m.sdoIndex, m.sdoSubindex⟩

lemma Mailbox.Ledger.holdStep {opts : Options} {m m' : Mailbox} {held posted : List ℕ}
    (h : Ledger opts m m' held posted) : m.HoldStep m' :=
  h.sdoHeld.imp id fun hheld => .inr hheld

/-- The tickets still fit after a call. -/
lemma Tickets.Fits.follow {t : Tickets} {m m' : Mailbox} (h : t.Fits m) (hstep : m.HoldStep m') :
    (t.follow m m').Fits m' := by
  constructor
  · intro hfree
    rw [Tickets.follow, if_pos hfree]
  · intro hheld
    have hactive : ¬ m'.sdoHeld.active = false := by rw [hheld]; decide
    rw [Tickets.follow, if_neg hactive]
    rcases hstep with hsame | hdropped | ⟨hfree, hnew⟩
    · rw [hsame] at hheld ⊢
      rw [if_pos hheld]
      exact h.held hheld
    · exact (hactive hdropped).elim
    · rw [hfree, if_neg Bool.false_ne_true, hnew]
      exact ⟨t.issued.length, rfl, by simp⟩

/-- The hold is the same, or there is none any more. -/
def KeepsHold (w w' : World σ) : Prop :=
  w'.mb.sdoHeld = w.mb.sdoHeld ∨ w'.mb.sdoHeld.active = false

instance : Std.Refl (KeepsHold (σ := σ)) := ⟨fun _ => .inl rfl⟩

instance : IsTrans (World σ) KeepsHold where
  trans _ _ _ h h' := by
    rcases h' with hsame | hdropped
    · rw [KeepsHold, hsame]
      exact h
    · exact .inr hdropped

/-- The AL side only ever drops the hold. -/
lemma holdRelation (sys : System σ) : AlRelation sys (KeepsHold (σ := σ)) where
  frame _ _ h := .inl (by rw [h.mb])
  stopmbx _ := .inr rfl
  startmbx _ _ _ _ _ := .inl rfl
  halt _ := .inl rfl

lemma Mailbox.repeated_sdoHeld (m : Mailbox) (rep : Bool) :
    (m.repeated rep).sdoHeld = m.sdoHeld := by
  rw [repeated]
  split
  · dsimp only
    split <;> rfl
  · rfl

lemma Mailbox.outboxRead_sdoHeld (m : Mailbox) : m.outboxRead.sdoHeld = m.sdoHeld := by
  rw [outboxRead, dropBackup]
  split <;> rfl

/-- `ESC_mbxprocess` leaves the hold alone. -/
lemma MbxTurn.sdoHeld {opts : Options} {stat event : Bool} {m m' : Mailbox}
    (h : MbxTurn opts stat event m m') : m'.sdoHeld = m.sdoHeld := by
  cases h with
  | read => exact m.outboxRead_sdoHeld
  | again _ rep => exact m.repeated_sdoHeld rep
  | @forward _ m₁ _ hposting hreceives =>
      have hpost : m₁.sdoHeld = m.sdoHeld := by
        rcases hposting with rfl | ⟨n, -, -, -, -, rfl⟩
        · rfl
        · rfl
      rcases hreceives with rfl | hreceives
      · exact hpost
      · obtain ⟨mbx, m₂, cnt, ⟨posted, -, -, hheld⟩, -, rfl⟩ := hreceives.error
        exact hheld.trans hpost

/-- A call leaves the hold, drops it, or holds the download in the inbox. -/
lemma DeviceCall.holds {c : DeviceCall σ} (hc : ∀ abortcode, c ≠ .sdoComplete abortcode) (k : ℕ)
    (d : Device σ) : wlp sys k c.run (fun _ d' => d.world.mb.HoldStep d'.world.mb) d := by
  by_cases hclaims : c.claims
  · refine (DeviceCall.exists_ledger hclaims k d).mono fun _ d' h => ?_
    obtain ⟨held, posted, hledger⟩ := h
    exact hledger.holdStep
  cases c with
  | sdoComplete abortcode => exact (hc abortcode rfl).elim
  | outreq n contents =>
      rw [DeviceCall.run, wlp_within, wlp_within, applicationOutreq, wlp_modify]
      refine .inl ?_
      change (ite _ _ _ : Mailbox).sdoHeld = _
      split <;> rfl
  | call c =>
      rw [DeviceCall.run, wlp_within]
      by_cases hal : c.isAl
      · refine (Call.keeps (holdRelation sys.sys) hal k d.world).mono fun _ w' h => ?_
        exact h.imp id .inl
      · cases c with
        | mbxprocess =>
            refine (wlp_map _ _ _).mpr (escMbxprocess_turn.mono fun _ w' h => .inl ?_)
            rcases h with hsame | ⟨-, w₁, -, hturn⟩
            · exact congrArg Mailbox.sdoHeld hsame
            · exact hturn.sdoHeld
        | coeprocess => exact (hclaims trivial).elim
        | xoeprocess => exact (hclaims trivial).elim
        | _ => exact (hal trivial).elim
  | _ => exact (hclaims trivial).elim

/-! ## Runs -/

/-- What can happen: a call other than a completion, or the completion of a ticket, or of a download
that was not held. -/
inductive HoldCall (σ : Type) where
  /-- A call, or a move of the surroundings. -/
  | call (c : DeviceCall σ)
  /-- `ESC_SDO_complete`. -/
  | complete (ticket : Option ℕ) (abortcode : Dword)

/-- One step, with its tickets. -/
def Tickets.Step (sys : DeviceSystem σ) (s : Device σ × Tickets) (l : ℕ × HoldCall σ)
    (s' : Device σ × Tickets) : Prop :=
  match l.2 with
  | .call c => (∀ abortcode, c ≠ .sdoComplete abortcode) ∧ Device.Step sys s.1 (l.1, c) s'.1 ∧
      s'.2 = s.2.follow s.1.world.mb s'.1.world.mb
  | .complete ticket abortcode => s.2.Open ticket ∧
      Device.Step sys s.1 (l.1, .sdoComplete abortcode) s'.1 ∧
      s'.2 = s.2.settle ticket s.1.world.mb s'.1.world.mb

/-- The states that are reached, with their tickets. -/
def Tickets.Reached (sys : DeviceSystem σ) (s : Device σ × Tickets) : Prop :=
  Reachable (fun s => Device.Initialised sys s.1 ∧ s.2 = .none) (Tickets.Step sys)
    (fun _ _ => True) s

/-- A completion drops the hold. -/
lemma Mailbox.completed_holdStep (opts : Options) (m : Mailbox) (abortcode : Dword) :
    m.HoldStep (m.completed opts abortcode) := by
  rw [completed]
  split
  · exact .inl rfl
  · split
    · exact .inr (.inl rfl)
    · exact .inr (.inl rfl)

/-- What the step of a completion does to the mailboxes. -/
lemma Tickets.Step.completed {s s' : Device σ × Tickets} {k : ℕ} {ticket : Option ℕ}
    {abortcode : Dword} (h : Tickets.Step sys s (k, .complete ticket abortcode) s') :
    s'.1.world.mb = s.1.world.mb.completed sys.sys.opts abortcode := by
  obtain ⟨-, hrun, -⟩ := h
  have hcompleted : wlp sys k (onStack (onCoe (escSdoComplete abortcode)))
      (fun _ d' => d'.world.mb = s.1.world.mb.completed sys.sys.opts abortcode) s.1 := by
    rw [wlp_within, wlp_within]
    refine (escSdoComplete_completed abortcode).wlp.mono fun _ c' hc' => ?_
    rw [hc']
    rfl
  exact hcompleted () _ hrun

/-- The hold is always that of the current ticket. -/
lemma Tickets.Reached.fits {s : Device σ × Tickets} (h : Tickets.Reached sys s) :
    s.2.Fits s.1.world.mb := by
  refine Reachable.invariant (P := fun s => s.2.Fits s.1.world.mb) (fun s hs => ?_)
    (fun s l s' hfits _ hstep => ?_) h
  · obtain ⟨outside, alEvent, bytes, hmb⟩ := deviceInit_stopped hs.1
    rw [hs.2, hmb]
    exact ⟨fun _ => rfl, fun hheld => (by cases hheld)⟩
  · obtain ⟨k, l⟩ := l
    cases l with
    | call c =>
        obtain ⟨hc, hrun, htickets⟩ := hstep
        rw [htickets]
        exact hfits.follow (DeviceCall.holds hc k s.1 () _ hrun)
    | complete ticket abortcode =>
        have hmb := Tickets.Step.completed hstep
        rw [hstep.2.2, hmb]
        have hfollow := hfits.follow (completed_holdStep sys.sys.opts s.1.world.mb abortcode)
        exact ⟨hfollow.free, hfollow.held⟩

/-- The completion answers its own request: it queues nothing, or one reply, for the download of
its ticket, which is the one held, and with its result. -/
def Tickets.AnswersOwn (t : Tickets) (opts : Options) (ticket : Option ℕ) (abortcode : Dword)
    (m m' : Mailbox) : Prop :=
  m'.control = m.control ∧ m'.txcue = m.txcue ∨
  ∃ n index subindex, ticket = some n ∧ t.current = some n ∧
    t.issued[n]? = some (index, subindex) ∧
    m.Answered opts m' (completionService abortcode) (completionCommand abortcode) index subindex
      abortcode

/-- **A completion answers its own request exactly if, while a reply can be queued, no other
download is held.** -/
theorem completion_answers_own_iff {s s' : Device σ × Tickets} {k : ℕ} {ticket : Option ℕ}
    {abortcode : Dword} (hreached : Tickets.Reached sys s)
    (hstep : Tickets.Step sys s (k, .complete ticket abortcode) s') :
    s.2.AnswersOwn sys.sys.opts ticket abortcode s.1.world.mb s'.1.world.mb ↔
      (s.1.world.mb.sdoHeld.active = true → s.1.world.mb.ReplyIdle sys.sys.opts →
        s.2.current = ticket) := by
  have hfits := hreached.fits
  rw [Tickets.Step.completed hstep]
  generalize s.1.world.mb = m at hfits ⊢
  constructor
  · intro hown hheld hidle
    obtain ⟨n, hpos, hlt, hfree, hcontrol, htxcue, -⟩ := completed_answers hheld hidle abortcode
    rcases hown with ⟨-, hnone⟩ | ⟨n', index, subindex, rfl, hcurrent, -⟩
    · rw [htxcue] at hnone
      exact absurd hnone (by simp)
    · exact hcurrent
  · intro hcurrent
    by_cases hheld : m.sdoHeld.active = true
    · by_cases hidle : m.ReplyIdle sys.sys.opts
      · obtain ⟨n, hn, hissued⟩ := hfits.held hheld
        have hticket : ticket = some n := (hcurrent hheld hidle).symm.trans hn
        exact .inr ⟨n, _, _, hticket, hn, hissued, completed_answers hheld hidle abortcode⟩
      · have hnone := (replyIdle_iff _ _).not.mp hidle
        have hactive : ¬ m.sdoHeld.active = false := by rw [hheld]; decide
        rw [completed, if_neg hactive, if_pos (not_not.mp hnone)]
        exact .inl ⟨rfl, rfl⟩
    · rw [completed, if_pos (Bool.eq_false_iff.mpr hheld)]
      exact .inl ⟨rfl, rfl⟩

/-! ## A late completion -/

/-- Take a step, if it is possible. -/
def Tickets.exec (sys : DeviceSystem σ) (s : Device σ × Tickets) (l : ℕ × HoldCall σ) :
    Option (Device σ × Tickets) :=
  match l.2 with
  | .call (.sdoComplete _) => .none
  | .call c => (c.exec sys l.1 s.1).map fun d => (d, s.2.follow s.1.world.mb d.world.mb)
  | .complete ticket abortcode =>
      if s.2.Open ticket then
        ((DeviceCall.sdoComplete abortcode).exec sys l.1 s.1).map fun d =>
          (d, s.2.settle ticket s.1.world.mb d.world.mb)
      else .none

lemma Tickets.exec_step (s : Device σ × Tickets) (l : ℕ × HoldCall σ) (s' : Device σ × Tickets)
    (h : Tickets.exec sys s l = some s') : True ∧ Tickets.Step sys s l s' := by
  refine ⟨trivial, ?_⟩
  obtain ⟨n, l⟩ := l
  cases l with
  | complete ticket abortcode =>
      rw [exec] at h
      dsimp only at h
      by_cases hopen : s.2.Open ticket
      · rw [if_pos hopen] at h
        obtain ⟨d, hd, rfl⟩ := Option.map_eq_some_iff.mp h
        exact ⟨hopen, DeviceCall.exec_step hd, rfl⟩
      · rw [if_neg hopen] at h
        cases h
  | call c =>
      have follows (hc : ∀ abortcode, c ≠ .sdoComplete abortcode)
          (h : (c.exec sys n s.1).map (fun d => (d, s.2.follow s.1.world.mb d.world.mb)) =
            some s') : Tickets.Step sys s (n, .call c) s' := by
        obtain ⟨d, hd, rfl⟩ := Option.map_eq_some_iff.mp h
        exact ⟨hc, DeviceCall.exec_step hd, rfl⟩
      cases c with
      | sdoComplete abortcode => cases h
      | _ => exact follows (fun _ hc => by cases hc) h

/-- The example device with a second object that can be written. -/
def twoObjects : DeviceSystem ByteStore :=
  exampleDevice { exampleHolding with dict :=
    { objects := exampleObjects ++
        [{ index := 0x7001, objtype := 9, maxsub := 1, name := [],
           objdesc := [constEntry 0 dtypeUnsigned8 8 1,
             { subindex := 1, datatype := dtypeUnsigned8, bitlength := 8, flags := 0x3f,
               name := [], value := 0, data := 0x101 }] }]
      ascending := by decide
      below_sentinel := by decide
      storage := by decide +kernel } }

/-- Calls other than completions. -/
def holdCalls (ls : List (ℕ × Call ByteStore)) : List (ℕ × HoldCall ByteStore) :=
  (stackCalls ls).map fun l => (l.1, .call l.2)

/-- A download of the first object is held. -/
def firstHeld : List (ℕ × HoldCall ByteStore) :=
  holdCalls (masterRequest 2 0 ++ masterMessage (sdoMessage 0x2f 0x7000 1 [0, 0, 0, 0]))

/-- The master starts over, and a download of the second object is held. -/
def secondHeld : List (ℕ × HoldCall ByteStore) :=
  firstHeld ++ holdCalls (masterRequest 1 0 ++ masterRequest 2 0 ++
    masterMessage (sdoMessage 0x2f 0x7001 1 [0, 0, 0, 0]))

/-- Something that is seen of a step after an executable run. -/
lemma Tickets.exists_step {α : Type} {sys : DeviceSystem σ} {n : ℕ} {outside : σ}
    {alEvent : Dword} {bytes : ByteStore} {ls : List (ℕ × HoldCall σ)} {l : ℕ × HoldCall σ}
    {f : Device σ × Tickets → Device σ × Tickets → α} {seen : α}
    (h : ((deviceStart sys n outside alEvent bytes).bind fun d =>
      (runSteps (Tickets.exec sys) ls (d, .none)).bind fun s =>
        (Tickets.exec sys s l).map (f s)) = some seen) :
    ∃ s s', Tickets.Reached sys s ∧ Tickets.Step sys s l s' ∧ f s s' = seen := by
  obtain ⟨d, hd, h⟩ := Option.bind_eq_some_iff.mp h
  obtain ⟨s, hs, h⟩ := Option.bind_eq_some_iff.mp h
  obtain ⟨s', hs', hseen⟩ := Option.map_eq_some_iff.mp h
  refine ⟨s, s', ?_, (Tickets.exec_step s l s' hs').2, hseen⟩
  exact runSteps_reachable Tickets.exec_step ls (.start ⟨deviceStart_initialised hd, rfl⟩) hs

/-- The completion of the only download that was held. -/
theorem completion_answers_first : ∃ s s', Tickets.Reached twoObjects s ∧
    Tickets.Step twoObjects s (0, .complete (some 0) 0) s' ∧ s.1.world.mb.sdoHeld.active = true ∧
    s.2.AnswersOwn exampleOptions (some 0) 0 s.1.world.mb s'.1.world.mb := by
  have hrun : ((deviceStart twoObjects 8 (exampleChip 1 0 0) 0 fun _ => 0).bind fun d =>
      (runSteps (Tickets.exec twoObjects) firstHeld (d, .none)).bind fun s =>
        (Tickets.exec twoObjects s (0, .complete (some 0) 0)).map fun _ =>
          (s.1.world.mb.sdoHeld.active, s.2.current)) = some (true, some 0) := by
    decide +kernel
  obtain ⟨s, s', hreached, hstep, hseen⟩ := Tickets.exists_step hrun
  obtain ⟨hheld, hcurrent⟩ := Prod.mk.inj hseen
  exact ⟨s, s', hreached, hstep, hheld,
    (completion_answers_own_iff hreached hstep).mpr fun _ _ => hcurrent⟩

/-- A completion that comes late answers the next download. -/
theorem completion_answers_another : ¬ ∀ (sys : DeviceSystem ByteStore)
    (s s' : Device ByteStore × Tickets) (k : ℕ) (ticket : Option ℕ) (abortcode : Dword),
    Tickets.Reached sys s → Tickets.Step sys s (k, .complete ticket abortcode) s' →
      s.2.AnswersOwn sys.sys.opts ticket abortcode s.1.world.mb s'.1.world.mb := by
  intro h
  have hrun : ((deviceStart twoObjects 8 (exampleChip 1 0 0) 0 fun _ => 0).bind fun d =>
      (runSteps (Tickets.exec twoObjects) secondHeld (d, .none)).bind fun s =>
        (Tickets.exec twoObjects s (0, .complete (some 0) 0)).map fun _ =>
          (s.1.world.mb.sdoHeld.active, s.2.current, s.1.world.mb.control 1)) =
            some (true, some 1, .idle) := by
    decide +kernel
  obtain ⟨s, s', hreached, hstep, hseen⟩ := Tickets.exists_step hrun
  obtain ⟨hheld, hseen⟩ := Prod.mk.inj hseen
  obtain ⟨hcurrent, hidle⟩ := Prod.mk.inj hseen
  have hown := (completion_answers_own_iff hreached hstep).mp
    (h twoObjects s s' 0 (some 0) 0 hreached hstep) hheld ⟨1, by decide, by decide, hidle⟩
  rw [hcurrent] at hown
  cases hown

end Soes
