import Mathlib.Data.List.Forall2
import Soes.Abstract.Eeprom
import Soes.Stack.Eep

/-!
# The emulated EEPROM

The master gives a command, waits until `busy` is clear, and takes what stands in the registers for
the answer of an EEPROM.  Here it is that of the EEPROM of `Soes.Abstract.Eeprom`
(`eeprom_emulated`), whatever commands the master gives, whenever it gives them, and whatever
happens in between: every command is answered once, in order, with the data and the error bits of
the EEPROM, and `EEP_process` does not return before the last one is answered.

The chip is not part of the stack, and neither are `EEP_read` and `EEP_write`.  Of the chip, it is
asked that a command stays until the stack acknowledges it (`EepChip`); of the other two, that they
access a store of bytes and refuse to leave it (`EepStore`).
-/

namespace Soes

open Program

variable {σ : Type} {env : EepEnv σ} {k : ℕ} {s s' s₀ : EepMem σ}

/-! ## The chip -/

/-- A command that the master gave, and what it found when it was acknowledged. -/
structure EepServed where
  stat : EepStat
  given : ByteStore
  reg : Word
  data : ByteStore

/-- The EEPROM registers, as the master and the stack share them. -/
structure EepPort where
  /-- A command, and the data register with it, that is not acknowledged yet. -/
  pending : Option (EepStat × ByteStore)
  data : ByteStore
  served : List EepServed
  /-- How many more commands the master is going to give. -/
  left : ℕ

/-- The master may give a command when the last one is acknowledged. -/
inductive EepPort.Asks (p : EepPort) : EepPort → Prop where
  /-- It does not. -/
  | same : Asks p p
  /-- It does. -/
  | command {n : ℕ} {stat : EepStat} {d : ByteStore} : p.pending = none → p.left = n + 1 →
      stat.busy = true → Asks p { p with pending := some (stat, d), data := d, left := n }

/-- What the chip does with the registers, seen through `port`: a command and its data stay
until the status is written. -/
structure EepChip (hal : Hal σ) (port : σ → EepPort) : Prop where
  /-- The status is read; the master may have been first. -/
  asks : ∀ o ev, (port o).Asks (port (hal.read o ev escregEecontstat 6).outside)
  idle : ∀ o ev, (port (hal.read o ev escregEecontstat 6).outside).pending = none →
    ((hal.read o ev escregEecontstat 6).data.word 0).getLsbD 15 = false
  busy : ∀ o ev c, (port (hal.read o ev escregEecontstat 6).outside).pending = some c →
    (⟨(hal.read o ev escregEecontstat 6).data.word 0,
      (hal.read o ev escregEecontstat 6).data.dword 2⟩ : EepStat) = c.1
  given : ∀ o ev n, (port o).pending.isSome →
    port (hal.read o ev escregEedata n).outside = port o ∧
      (hal.read o ev escregEedata n).data.bytes 0 n = (port o).data.bytes 0 n
  fill : ∀ o ev n d, (port o).pending.isSome →
    port (hal.write o ev escregEedata n d).outside =
      { port o with data := (port o).data.copy 0 n d 0 }
  acknowledge : ∀ o ev reg c, (port o).pending = some c →
    port (hal.write o ev escregEecontstat 2 (.ofWord reg)).outside =
      { port o with
        pending := none
        served := (port o).served ++ [⟨c.1, c.2, reg, (port o).data⟩] }

/-- `EEP_read` and `EEP_write` access a store of bytes, which nothing else changes. -/
structure EepStore (env : EepEnv σ) (port : σ → EepPort) (size : ℕ) (bytes : σ → ByteStore) :
    Prop where
  read_bus : ∀ o ev a n, bytes (env.hal.read o ev a n).outside = bytes o
  write_bus : ∀ o ev a n d, bytes (env.hal.write o ev a n d).outside = bytes o
  read : ∀ o a n, bytes (env.eepRead o a n).outside = bytes o ∧
    port (env.eepRead o a n).outside = port o ∧
    ((env.eepRead o a n).result = 0 ↔ a.toNat + n ≤ size) ∧
    (a.toNat + n ≤ size → (env.eepRead o a n).data.bytes 0 n = (bytes o).bytes a.toNat n)
  write : ∀ o a d n, port (env.eepWrite o a d n).outside = port o ∧
    ((env.eepWrite o a d n).result = 0 ↔ a.toNat + n ≤ size) ∧
    bytes (env.eepWrite o a d n).outside =
      if a.toNat + n ≤ size then (bytes o).copy a.toNat n d 0 else bytes o

/-! ## Answers -/

/-- A command with data, to an EEPROM. -/
def EepStat.op (stat : EepStat) (given : ByteStore) : EepromOp :=
  if stat.cmdReg = eepCmdIdle then .idle
  else if stat.cmdReg = eepCmdRead then .read stat.addr
  else if stat.cmdReg = eepCmdReload then .reload stat.addr
  else if stat.cmdReg = eepCmdWrite then .write stat.addr (given.word 0)
  else .unknown

/-- A status register that answers: the error bits are clear, but for the one of a command that
fails. -/
def EepStat.replied (stat : EepStat) (failed : Bool) : EepStat :=
  if failed then stat.clearErrors.ackErr else stat.clearErrors

/-- The command that was served, to an EEPROM. -/
def EepServed.op (x : EepServed) : EepromOp := x.stat.op x.given

/-- The registers answer like an EEPROM: with its error, and with what it delivers in front of
what was in the data register. -/
structure EepServed.Answers (x : EepServed) (r : EepromReply) : Prop where
  reg : x.reg = (x.stat.replied r.failed).reg
  data : x.given.Stored x.data 0 r.data

lemma EepStat.cmdReg_clearErrors (stat : EepStat) : stat.clearErrors.cmdReg = stat.cmdReg := by
  have hmask : (~~~0x7800 : Word) >>> 8 &&& 0x7 = 0x7 := by decide
  rw [cmdReg, cmdReg, clearErrors, BitVec.ushiftRight_and_distrib, BitVec.and_assoc, hmask]

/-! ## A command -/

section command

variable {port : σ → EepPort} {bytes : σ → ByteStore} {size : ℕ} {e : Eeprom}
  {c : EepStat × ByteStore}

/-- The registers, with other data in the data register. -/
def EepPort.withData (p : EepPort) (d : ByteStore) : EepPort := { p with data := d }

/-- A command is being served: the EEPROM is `e`, and the master's command and data still stand
in the registers. -/
structure Serving (port : σ → EepPort) (bytes : σ → ByteStore) (e : Eeprom)
    (c : EepStat × ByteStore) (s : EepMem σ) : Prop where
  pending : (port s.bus.outside).pending = some c
  data : (port s.bus.outside).data = c.2
  bytes_eq : bytes s.bus.outside = e.bytes
  readSize : s.eepReadSize = e.width
  reload : s.eepReloadPtr = none

/-- A command has been served, up to its acknowledgement: the EEPROM is `e`, and the data
register has the data of the reply. -/
structure Replied (port : σ → EepPort) (bytes : σ → ByteStore) (e : Eeprom)
    (c : EepStat × ByteStore) (r : EepromReply) (s : EepMem σ) (stat : EepStat) (s' : EepMem σ) :
    Prop where
  stat_eq : stat = c.1.replied r.failed
  registers : ∃ d, port s'.bus.outside = (port s.bus.outside).withData d ∧ c.2.Stored d 0 r.data
  bytes_eq : bytes s'.bus.outside = e.bytes
  readSize : s'.eepReadSize = s.eepReadSize
  reload : s'.eepReloadPtr = s.eepReloadPtr

/-- Nothing was delivered, and nothing was stored. -/
lemma Serving.replied (h : Serving port bytes e c s) (failed : Bool) :
    Replied port bytes e c ⟨failed, []⟩ s (c.1.replied failed) s := by
  refine ⟨rfl, ⟨c.2, ?_, rfl, fun _ _ => rfl⟩, h.bytes_eq, rfl, rfl⟩
  rw [EepPort.withData, ← h.data]

/-- What is delivered. -/
lemma eepDeliver_replies (chip : EepChip env.hal port) (store : EepStore env port e.size bytes)
    (h : Serving port bytes e c s) (addr : Dword) (n : ℕ) :
    wp env k (eepDeliver addr n c.1.clearErrors)
      (Replied port bytes e c (e.deliver addr.toNat n) s) s := by
  obtain ⟨hbytes, hport, hresult, hdata⟩ := store.read s.bus.outside addr n
  rw [eepDeliver, wp_bind, eepReadBuf, wp_transact]
  dsimp only
  rw [Eeprom.deliver]
  by_cases hin : addr.toNat + n ≤ e.size
  · rw [if_neg (not_not.mpr (hresult.mpr hin)), if_pos hin, wp_get_bind, wp_bind, wp_within,
      escWrite, wp_transact, wp_pure]
    have hread := hdata hin
    rw [h.bytes_eq] at hread
    have hpending : (port (env.eepRead s.bus.outside addr n).outside).pending.isSome := by
      rw [hport, h.pending]
      rfl
    have hfill := chip.fill (env.eepRead s.bus.outside addr n).outside s.bus.alEvent n
      (s.eepBuf.copy 0 n (env.eepRead s.bus.outside addr n).data 0) hpending
    rw [hport, h.data] at hfill
    refine ⟨rfl, ⟨_, hfill, ?_⟩, ?_, rfl, rfl⟩
    · have hlength : (e.bytes.bytes addr.toNat n).length = n := ByteStore.length_bytes
      have hbuf : (s.eepBuf.copy 0 n (env.eepRead s.bus.outside addr n).data 0).bytes 0
          (e.bytes.bytes addr.toNat n).length = e.bytes.bytes addr.toNat n := by
        rw [hlength, ByteStore.bytes_copy, hread]
      have hstored := ByteStore.stored_copy (m := c.2) hbuf 0
      rw [hlength] at hstored
      exact hstored
    · exact (store.write_bus _ _ _ _ _).trans (hbytes.trans h.bytes_eq)
  · rw [if_pos (fun hzero => hin (hresult.mp hzero)), if_neg hin, wp_pure]
    refine ⟨rfl, ⟨c.2, ?_, rfl, fun _ _ => rfl⟩, hbytes.trans h.bytes_eq, rfl, rfl⟩
    rw [hport, EepPort.withData, ← h.data]

/-- What is stored. -/
lemma eepStore_replies (chip : EepChip env.hal port) (store : EepStore env port e.size bytes)
    (h : Serving port bytes e c s) :
    wp env k (eepStore c.1.clearErrors)
      (Replied port bytes (e.after (.write c.1.addr (c.2.word 0))) c
        (e.reply (.write c.1.addr (c.2.word 0))) s) s := by
  have hpending : (port s.bus.outside).pending.isSome := by
    rw [h.pending]
    rfl
  obtain ⟨hgiven, hdata⟩ := chip.given s.bus.outside s.bus.alEvent eepWriteSize hpending
  have hkept := store.read_bus s.bus.outside s.bus.alEvent escregEedata eepWriteSize
  rw [eepStore, wp_bind, wp_within, escRead, wp_transact]
  dsimp only [eepBusOf]
  generalize env.hal.read s.bus.outside s.bus.alEvent escregEedata eepWriteSize = a
    at hgiven hdata hkept
  rw [wp_bind, wp_modify, wp_bind, eepWriteBuf, wp_transact]
  dsimp only
  have hbuf : (s.eepBuf.copy 0 eepWriteSize a.data 0).bytes 0 2 =
      (ByteStore.ofWord (c.2.word 0)).bytes 0 2 := by
    rw [ByteStore.bytes_copy, hdata, h.data, ByteStore.bytes_ofWord_word]
  generalize s.eepBuf.copy 0 eepWriteSize a.data 0 = buf at hbuf
  obtain ⟨hport, hresult, hstored⟩ := store.write a.outside (c.1.addr * 2) buf eepWriteSize
  have haddr : c.1.clearErrors.addr * 2 = c.1.addr * 2 := rfl
  rw [wp_pure, haddr]
  have hregisters : ∃ d, port (env.eepWrite a.outside (c.1.addr * 2) buf eepWriteSize).outside =
      (port s.bus.outside).withData d ∧ c.2.Stored d 0 [] := by
    refine ⟨c.2, ?_, rfl, fun _ _ => rfl⟩
    rw [hport, hgiven, EepPort.withData, ← h.data]
  by_cases hin : (c.1.addr * 2).toNat + 2 ≤ e.size
  · have hreply : e.reply (.write c.1.addr (c.2.word 0)) = ⟨false, []⟩ :=
      congrArg (EepromReply.mk · []) (decide_eq_false (Nat.not_lt.mpr hin))
    have hafter : (e.after (.write c.1.addr (c.2.word 0))).bytes =
        e.bytes.setWord (c.1.addr * 2).toNat (c.2.word 0) := congrArg Eeprom.bytes (if_pos hin)
    rw [if_neg (not_not.mpr (hresult.mpr hin)), hreply]
    refine ⟨rfl, hregisters, hstored.trans ?_, rfl, rfl⟩
    rw [if_pos hin, hafter, hkept, h.bytes_eq]
    exact ByteStore.copy_of_bytes hbuf
  · have hreply : e.reply (.write c.1.addr (c.2.word 0)) = ⟨true, []⟩ :=
      congrArg (EepromReply.mk · []) (decide_eq_true (Nat.lt_of_not_le hin))
    have hafter : (e.after (.write c.1.addr (c.2.word 0))).bytes = e.bytes :=
      congrArg Eeprom.bytes (if_neg hin)
    rw [if_pos (fun hzero => hin (hresult.mp hzero)), hreply]
    refine ⟨rfl, hregisters, hstored.trans ?_, rfl, rfl⟩
    rw [if_neg hin, hafter, hkept, h.bytes_eq]

/-- The `switch` answers like the EEPROM. -/
lemma eepCommand_replies (chip : EepChip env.hal port) (store : EepStore env port e.size bytes)
    (h : Serving port bytes e c s) :
    wp env k (eepCommand c.1.clearErrors)
      (Replied port bytes (e.after (c.1.op c.2)) c (e.reply (c.1.op c.2)) s) s := by
  have haddr : c.1.clearErrors.addr = c.1.addr := rfl
  rw [eepCommand, wp_get_bind, EepStat.cmdReg_clearErrors, EepStat.op]
  by_cases hidle : c.1.cmdReg = eepCmdIdle
  · rw [if_pos hidle, if_pos hidle, wp_pure]
    exact h.replied false
  rw [if_neg hidle, if_neg hidle]
  by_cases hread : c.1.cmdReg = eepCmdRead
  · rw [if_pos hread, if_pos hread, h.readSize, haddr]
    exact eepDeliver_replies chip store h (c.1.addr * 2) e.width
  rw [if_neg hread, if_neg hread]
  by_cases hreload : c.1.cmdReg = eepCmdReload
  · rw [if_pos hreload, if_pos hreload, eepReload, wp_get_bind, h.reload, h.readSize]
    dsimp only
    by_cases hwide : e.wide = true
    · have hwidth : e.width = 8 := if_pos hwide
      have hreply : e.reply (.reload c.1.addr) = e.deliver (c.1.addr * 2).toNat e.width :=
        if_pos hwide
      rw [if_pos hwidth, haddr, hreply]
      exact eepDeliver_replies chip store h (c.1.addr * 2) e.width
    · have hwidth : ¬ e.width = 8 := by
        rw [Eeprom.width, if_neg hwide]
        decide
      have hreply : e.reply (.reload c.1.addr) = e.deliver (eepConfigAliasWordOffset * 2).toNat 2 :=
        if_neg hwide
      rw [if_neg hwidth, hreply]
      exact eepDeliver_replies chip store h (eepConfigAliasWordOffset * 2) 2
  rw [if_neg hreload, if_neg hreload]
  by_cases hwrite : c.1.cmdReg = eepCmdWrite
  · rw [if_pos hwrite, if_pos hwrite]
    exact eepStore_replies chip store h
  · rw [if_neg hwrite, if_neg hwrite, wp_pure]
    exact h.replied true

end command

/-! ## Rounds -/

section rounds

variable {port : σ → EepPort} {bytes : σ → ByteStore} {e : Eeprom}

/-- So far, the registers have answered like the EEPROM that was `e`, and the EEPROM is what the
commands have made of it. -/
structure Emulates (port : σ → EepPort) (bytes : σ → ByteStore) (e : Eeprom) (s : EepMem σ) :
    Prop where
  answers : List.Forall₂ EepServed.Answers (port s.bus.outside).served
    (e.replies ((port s.bus.outside).served.map EepServed.op))
  bytes_eq : bytes s.bus.outside = (e.run ((port s.bus.outside).served.map EepServed.op)).bytes
  /-- A command that waits is one, and its data is in the data register. -/
  waits : ∀ c, (port s.bus.outside).pending = some c →
    c.1.busy = true ∧ (port s.bus.outside).data = c.2
  readSize : s.eepReadSize = e.width
  reload : s.eepReloadPtr = none

/-- How many commands are still to be served. -/
def EepPort.todo (p : EepPort) : ℕ := p.left + if p.pending.isSome then 1 else 0

lemma Eeprom.run_size (ops : List EepromOp) : (e.run ops).size = e.size := by
  induction ops generalizing e with
  | nil => rfl
  | cons op ops ih => exact (@ih (e.after op)).trans (Eeprom.after_size op)

lemma Eeprom.run_width (ops : List EepromOp) : (e.run ops).width = e.width := by
  induction ops generalizing e with
  | nil => rfl
  | cons op ops ih =>
      refine (@ih (e.after op)).trans ?_
      rw [Eeprom.width, Eeprom.width, Eeprom.after_wide]

/-- The master may give a command. -/
lemma Emulates.asks (h : Emulates port bytes e s) {b : Bus σ}
    (hasks : (port s.bus.outside).Asks (port b.outside))
    (hbytes : bytes b.outside = bytes s.bus.outside) :
    Emulates port bytes e { s with bus := b } ∧
      (port b.outside).todo = (port s.bus.outside).todo := by
  obtain ⟨hanswers, hstore, hwaits, hsize, hreload⟩ := h
  generalize hp : port b.outside = p at hasks
  cases hasks with
  | same =>
      refine ⟨⟨?_, ?_, ?_, hsize, hreload⟩, rfl⟩
      · rw [hp]
        exact hanswers
      · rw [hp, ← hstore]
        exact hbytes
      · rw [hp]
        exact hwaits
  | command hnone hleft hbusy =>
      refine ⟨⟨?_, ?_, ?_, hsize, hreload⟩, ?_⟩
      · rw [hp]
        exact hanswers
      · rw [hp, ← hstore]
        exact hbytes
      · rw [hp]
        intro c hc
        rw [← Option.some.inj hc]
        exact ⟨hbusy, rfl⟩
      · rw [EepPort.todo, EepPort.todo, hnone, hleft]
        rfl

/-- A round of the loop answers one command, or finds none. -/
lemma eepRound_emulates (chip : EepChip env.hal port) (store : EepStore env port e.size bytes)
    (h : Emulates port bytes e s) :
    wp env k eepRound (fun x s' => Emulates port bytes e s' ∧
      ((x = .inl () ∧ (port s'.bus.outside).todo < (port s.bus.outside).todo) ∨
        (x = .inr () ∧ (port s'.bus.outside).pending = none))) s := by
  obtain ⟨hemulates, htodo⟩ := h.asks
    (b := { s.bus with
      outside := (env.hal.read s.bus.outside s.bus.alEvent escregEecontstat 6).outside
      alEvent := (env.hal.read s.bus.outside s.bus.alEvent escregEecontstat 6).alEvent })
    (chip.asks s.bus.outside s.bus.alEvent) (store.read_bus _ _ _ _)
  have hidle := chip.idle s.bus.outside s.bus.alEvent
  have hbusy := chip.busy s.bus.outside s.bus.alEvent
  rw [eepRound, wp_bind, wp_within, escRead, wp_transact]
  dsimp only [eepBusOf]
  generalize env.hal.read s.bus.outside s.bus.alEvent escregEecontstat 6 = a
    at hemulates htodo hidle hbusy
  cases hpending : (port a.outside).pending with
  | none =>
      have hclear : ¬ EepStat.busy ⟨a.data.word 0, a.data.dword 2⟩ = true := by
        rw [EepStat.busy, hidle hpending]
        exact Bool.false_ne_true
      rw [if_pos hclear, wp_pure]
      exact ⟨hemulates, .inr ⟨rfl, hpending⟩⟩
  | some c =>
      have hstat : (⟨a.data.word 0, a.data.dword 2⟩ : EepStat) = c.1 := hbusy c hpending
      obtain ⟨hset, hdata⟩ := hemulates.waits c hpending
      rw [hstat, if_neg (not_not.mpr hset), wp_bind]
      generalize hs₁ : ({ s with
        bus := { s.bus with
          outside := a.outside
          alEvent := a.alEvent } } : EepMem σ) = s₁ at hemulates
      have hport₁ : port s₁.bus.outside = port a.outside := by rw [← hs₁]
      rw [← hport₁] at hpending hdata htodo
      generalize hops : (port s₁.bus.outside).served.map EepServed.op = ops
      have hserving : Serving port bytes (e.run ops) c s₁ := by
        refine ⟨hpending, hdata, ?_, ?_, hemulates.reload⟩
        · rw [hemulates.bytes_eq, hops]
        · rw [hemulates.readSize, Eeprom.run_width]
      rw [← Eeprom.run_size ops] at store
      refine (eepCommand_replies chip store hserving).mono fun stat s₂ hreplied => ?_
      obtain ⟨hstat₂, ⟨d, hport₂, hstored⟩, hbytes₂, hsize₂, hreload₂⟩ := hreplied
      rw [wp_bind, wp_within, escWrite, wp_transact, wp_pure]
      dsimp only [eepBusOf]
      have hpending₂ : (port s₂.bus.outside).pending = some c := by
        rw [hport₂]
        exact hpending
      have hport₃ := chip.acknowledge s₂.bus.outside s₂.bus.alEvent stat.reg c hpending₂
      have hbytes₃ := store.write_bus s₂.bus.outside s₂.bus.alEvent escregEecontstat 2
        (.ofWord stat.reg)
      generalize env.hal.write s₂.bus.outside s₂.bus.alEvent escregEecontstat 2
        (.ofWord stat.reg) = a₃ at hport₃ hbytes₃
      have hserved : (port a₃.outside).served =
          (port s₁.bus.outside).served ++ [⟨c.1, c.2, stat.reg, d⟩] := by
        rw [hport₃, hport₂]
        rfl
      have hops₃ : (port a₃.outside).served.map EepServed.op = ops ++ [c.1.op c.2] := by
        rw [hserved, List.map_append, hops]
        rfl
      refine ⟨⟨?_, ?_, ?_, ?_, ?_⟩, .inl ⟨rfl, ?_⟩⟩
      · change List.Forall₂ EepServed.Answers (port a₃.outside).served
          (e.replies ((port a₃.outside).served.map EepServed.op))
        rw [hops₃, Eeprom.replies_concat, hserved]
        refine List.rel_append ?_ (.cons ⟨?_, hstored⟩ .nil)
        · rw [← hops]
          exact hemulates.answers
        · rw [hstat₂]
      · change bytes a₃.outside = (e.run ((port a₃.outside).served.map EepServed.op)).bytes
        rw [hops₃, Eeprom.run_concat, hbytes₃, hbytes₂]
      · change ∀ c, (port a₃.outside).pending = some c → _
        rw [hport₃]
        intro c' hc'
        cases hc'
      · exact hsize₂.trans hemulates.readSize
      · exact hreload₂.trans hemulates.reload
      · rw [← htodo, EepPort.todo, EepPort.todo, hport₃, hport₂, hpending]
        exact Nat.lt_succ_self _

/-- `EEP_process` answers like the EEPROM; and when it was called for a reason, it does not
return before the last command is answered. -/
lemma eepProcess_emulates (chip : EepChip env.hal port) (store : EepStore env port e.size bytes)
    (h : Emulates port bytes e s) :
    wlp env k eepProcess (fun _ s' => Emulates port bytes e s' ∧
      (s.bus.alEvent &&& escregAleventEep ≠ 0 → (port s'.bus.outside).pending = none)) s := by
  rw [eepProcess, wlp_get_bind]
  refine .when (fun _ => ?_) fun hno => ⟨h, fun hevent => (hno hevent).elim⟩
  refine wlp_loop (fun _ s => Emulates port bytes e s) h fun _ s hs => ?_
  refine (eepRound_emulates chip store hs).wlp.mono fun x s' hround => ?_
  obtain ⟨hemulates, ⟨rfl, -⟩ | ⟨rfl, hnone⟩⟩ := hround
  · exact hemulates
  · exact ⟨hemulates, fun _ => hnone⟩

/-- `EEP_process` returns, once the master has no more commands to give. -/
lemma eepProcess_ends (chip : EepChip env.hal port) (store : EepStore env port e.size bytes)
    (h : Emulates port bytes e s) (hfuel : (port s.bus.outside).todo < k) :
    wp env k eepProcess (fun _ _ => True) s := by
  rw [eepProcess, wp_get_bind]
  refine .when (fun _ => ?_) fun _ => trivial
  refine wp_loop (fun _ s => Emulates port bytes e s) (fun _ s => (port s.bus.outside).todo) h hfuel
    fun _ s hs => ?_
  refine (eepRound_emulates chip store hs).mono fun x s' hround => ?_
  obtain ⟨hemulates, ⟨rfl, htodo⟩ | ⟨rfl, -⟩⟩ := hround
  · exact ⟨hemulates, htodo⟩
  · trivial

end rounds

/-! ## Runs -/

/-- A run of the emulation: `EEP_process` is called again and again, and in between the master
may give a command and anything else may happen to the ESC. -/
inductive EepRun (env : EepEnv σ) (port : σ → EepPort) (bytes : σ → ByteStore) (s₀ : EepMem σ) :
    EepMem σ → Prop where
  /-- The start. -/
  | start : EepRun env port bytes s₀ s₀
  /-- A call of `EEP_process`. -/
  | process {s s' : EepMem σ} {k : ℕ} (run : EepRun env port bytes s₀ s)
      (pass : eepProcess env k s = .ok () s') : EepRun env port bytes s₀ s'
  /-- The master, and the rest of the ESC. -/
  | master {s : EepMem σ} {b : Bus σ} (run : EepRun env port bytes s₀ s)
      (asks : (port s.bus.outside).Asks (port b.outside))
      (keeps : bytes b.outside = bytes s.bus.outside) : EepRun env port bytes s₀ { s with bus := b }

lemma EepRun.emulates {port : σ → EepPort} {bytes : σ → ByteStore} {e : Eeprom}
    (chip : EepChip env.hal port) (store : EepStore env port e.size bytes)
    (h₀ : Emulates port bytes e s₀) (run : EepRun env port bytes s₀ s) :
    Emulates port bytes e s := by
  induction run with
  | start => exact h₀
  | process _ pass ih => exact (eepProcess_emulates chip store ih _ _ pass).1
  | master _ asks keeps ih => exact (ih.asks asks keeps).1

/-- **The stack is the EEPROM that the master sees**, in every run: the commands acknowledged so
far, whatever they were and whenever they were given, were answered one by one with the data and the
error bits of an EEPROM that started with the contents of the store, and the store holds what that
EEPROM holds. A call of `EEP_process` with the event returns, and leaves no command without an
answer, if the master gives no more commands than the loop has rounds. -/
theorem eeprom_emulated {port : σ → EepPort} {bytes : σ → ByteStore} {size : ℕ} {wide : Bool}
    (chip : EepChip env.hal port) (store : EepStore env port size bytes)
    (hstart : port s₀.bus.outside =
      ⟨none, (port s₀.bus.outside).data, [], (port s₀.bus.outside).left⟩)
    (hsize : s₀.eepReadSize = if wide then 8 else 4) (hreload : s₀.eepReloadPtr = none)
    (run : EepRun env port bytes s₀ s) :
    List.Forall₂ EepServed.Answers (port s.bus.outside).served
        ((⟨size, wide, bytes s₀.bus.outside⟩ : Eeprom).replies
          ((port s.bus.outside).served.map EepServed.op)) ∧
      bytes s.bus.outside = ((⟨size, wide, bytes s₀.bus.outside⟩ : Eeprom).run
        ((port s.bus.outside).served.map EepServed.op)).bytes ∧
      (s.bus.alEvent &&& escregAleventEep ≠ 0 → ∀ k, (port s.bus.outside).todo < k →
        ∃ s', eepProcess env k s = .ok () s' ∧ (port s'.bus.outside).pending = none) := by
  have h₀ : Emulates port bytes ⟨size, wide, bytes s₀.bus.outside⟩ s₀ := by
    refine ⟨?_, ?_, ?_, hsize, hreload⟩
    · rw [hstart]
      exact .nil
    · rw [hstart]
      rfl
    · rw [hstart]
      intro c hc
      cases hc
  have h : Emulates port bytes ⟨size, wide, bytes s₀.bus.outside⟩ s := run.emulates chip store h₀
  refine ⟨h.answers, h.bytes_eq, fun hevent k hfuel => ?_⟩
  obtain ⟨_, s', hrun, -⟩ := eepProcess_ends chip store h hfuel
  exact ⟨s', hrun, (eepProcess_emulates chip store h _ _ hrun).2 hevent⟩

/-! ## A chip with a master -/

/-- The EEPROM registers of a chip, with the commands that its master is going to give, and a store
beside it. -/
structure EepScript where
  /-- The registers, but for the number of commands to come. -/
  port : EepPort
  script : List { c : EepStat × ByteStore // c.1.busy = true }
  bytes : ByteStore

namespace EepScript

/-- The registers. -/
def view (o : EepScript) : EepPort := { o.port with left := o.script.length }

/-- The master gives its next command, once the last one is acknowledged. -/
def command (o : EepScript) : EepScript :=
  match o.port.pending, o.script with
  | none, c :: cs => { o with
      port := { o.port with
        pending := some c.1
        data := c.1.2 }
      script := cs }
  | _, _ => o

/-- The status and address registers. -/
def status (o : EepScript) : ByteStore :=
  match o.port.pending with
  | none => fun _ => 0
  | some c => (ByteStore.ofWord c.1.reg).setDword 2 c.1.addr

/-- The stack writes a register. -/
def write (o : EepScript) (address n : ℕ) (d : ByteStore) : EepScript :=
  if address = escregEecontstat then
    match o.port.pending with
    | none => o
    | some c => { o with port := { o.port with
        pending := none
        served := o.port.served ++ [⟨c.1, c.2, d.word 0, o.port.data⟩] } }
  else { o with port := { o.port with data := o.port.data.copy 0 n d 0 } }

/-- The chip. -/
def hal : Hal EepScript where
  init o event := (o, event, true)
  read o event address _ :=
    if address = escregEecontstat then ⟨o.command.status, event, o.command⟩
    else ⟨o.port.data, event, o⟩
  write o event address n d := ⟨d, event, o.write address n d⟩

/-- The emulation with this chip and a store of 64 bytes. -/
def emulation : EepEnv EepScript where
  hal := hal
  eepRead o addr n := ⟨if addr.toNat + n ≤ 64 then 0 else 1, o.bytes.shift addr.toNat, o⟩
  eepWrite o addr d n :=
    if addr.toNat + n ≤ 64 then ⟨0, d, { o with bytes := o.bytes.copy addr.toNat n d 0 }⟩
    else ⟨1, d, o⟩

/-- A command changes neither what was served nor the store. -/
lemma command_cases (o : EepScript) : o.command = o ∨
    ∃ c cs, o.port.pending = none ∧ o.script = c :: cs ∧ o.command =
      { o with
        port := { o.port with
          pending := some c.1
          data := c.1.2 }
        script := cs } := by
  rw [command]
  cases hpending : o.port.pending with
  | some c => exact .inl rfl
  | none =>
      cases hscript : o.script with
      | nil => exact .inl rfl
      | cons c cs => exact .inr ⟨c, cs, rfl, rfl, rfl⟩

lemma chip : EepChip hal view where
  asks o _ := by
    change o.view.Asks o.command.view
    rcases o.command_cases with heq | ⟨c, cs, hpending, hscript, heq⟩
    · rw [heq]
      exact .same
    · have hleft : o.view.left = cs.length + 1 := congrArg List.length hscript
      rw [heq]
      exact .command hpending hleft c.2
  idle o _ h := by
    change (o.command.status.word 0).getLsbD 15 = false
    have hnone : o.command.port.pending = none := h
    rw [status, hnone]
    decide
  busy o _ c h := by
    change (⟨o.command.status.word 0, o.command.status.dword 2⟩ : EepStat) = c.1
    have hsome : o.command.port.pending = some c := h
    rw [status, hsome]
    change (⟨((ByteStore.ofWord c.1.reg).setDword 2 c.1.addr).word 0,
      ((ByteStore.ofWord c.1.reg).setDword 2 c.1.addr).dword 2⟩ : EepStat) = c.1
    rw [ByteStore.dword_setDword, ByteStore.word_setDword_of_disjoint _ (by omega)]
    have hreg : (ByteStore.ofWord c.1.reg).word 0 = c.1.reg := ByteStore.word_append c.1.reg
    rw [hreg]
  given o _ n _ := ⟨rfl, rfl⟩
  fill o _ n d _ := rfl
  acknowledge o _ reg c h := by
    have hsome : o.port.pending = some c := h
    change (o.write escregEecontstat 2 (.ofWord reg)).view = _
    have hreg : (ByteStore.ofWord reg).word 0 = reg := ByteStore.word_append reg
    rw [write, if_pos rfl, hsome, hreg]
    rfl

lemma command_bytes (o : EepScript) : o.command.bytes = o.bytes := by
  rcases o.command_cases with heq | ⟨c, cs, -, -, heq⟩ <;> rw [heq]

lemma write_bytes (o : EepScript) (address n : ℕ) (d : ByteStore) :
    (o.write address n d).bytes = o.bytes := by
  rw [write]
  by_cases haddress : address = escregEecontstat
  · rw [if_pos haddress]
    cases o.port.pending <;> rfl
  · rw [if_neg haddress]

lemma store : EepStore emulation view 64 bytes where
  read_bus o ev a n := by
    by_cases ha : a = escregEecontstat
    · rw [ha]
      exact o.command_bytes
    · exact congrArg (fun a : BusAnswer EepScript => a.outside.bytes) (if_neg ha)
  write_bus o _ a n d := o.write_bytes a n d
  read o a n := by
    refine ⟨rfl, rfl, ?_, fun _ => ByteStore.bytes_shift _ _ _⟩
    change (if a.toNat + n ≤ 64 then (0 : Byte) else 1) = 0 ↔ _
    by_cases hin : a.toNat + n ≤ 64
    · rw [if_pos hin]
      exact ⟨fun _ => hin, fun _ => rfl⟩
    · rw [if_neg hin]
      exact ⟨fun h => absurd h (by decide), fun h => (hin h).elim⟩
  write o a d n := by
    by_cases hin : a.toNat + n ≤ 64
    · have heq : emulation.eepWrite o a d n =
          ⟨0, d, { o with bytes := o.bytes.copy a.toNat n d 0 }⟩ := if_pos hin
      rw [heq, if_pos hin]
      exact ⟨rfl, ⟨fun _ => hin, fun _ => rfl⟩, rfl⟩
    · have heq : emulation.eepWrite o a d n = ⟨1, d, o⟩ := if_neg hin
      rw [heq, if_neg hin]
      have hone : ¬ (1 : Byte) = 0 := by decide
      exact ⟨rfl, ⟨fun h => (hone h).elim, fun h => (hin h).elim⟩, rfl⟩

/-- The master writes a word, reads it, reads outside of the store, and gives a command that is
none. -/
def exampleMem : EepMem EepScript where
  bus := {
    outside := {
      port := ⟨none, fun _ => 0, [], 0⟩
      script := [⟨(⟨0x8200, 3⟩, .ofWord 0xBEEF), rfl⟩, ⟨(⟨0x8100, 3⟩, fun _ => 0), rfl⟩,
        ⟨(⟨0x8100, 32⟩, fun _ => 0), rfl⟩, ⟨(⟨0x8700, 0⟩, fun _ => 0), rfl⟩]
      bytes := fun _ => 0 }
    alEvent := escregAleventEep
    sm := ⟨fun _ => default, 0, fun _ => false⟩ }
  eepBuf := fun _ => 0
  eepReadSize := 8
  eepReloadPtr := none

/-- It is answered like this. -/
theorem eeprom_emulated_example : ∃ s, EepRun emulation view bytes exampleMem s ∧
    List.Forall₂ EepServed.Answers (view s.bus.outside).served
      [⟨false, []⟩, ⟨false, [0xEF, 0xBE, 0, 0, 0, 0, 0, 0]⟩, ⟨true, []⟩, ⟨true, []⟩] := by
  have hseen : (eepProcess emulation 5 exampleMem).seen
      (fun s => (view s.bus.outside).served.map EepServed.op) =
        some [.write 3 0xBEEF, .read 3, .read 32, .unknown] := by
    decide +kernel
  generalize hrun : eepProcess emulation 5 exampleMem = outcome at hseen
  cases outcome with
  | ok u s =>
      have hops : (view s.bus.outside).served.map EepServed.op =
        [.write 3 0xBEEF, .read 3, .read 32, .unknown] := Option.some.inj hseen
      have run : EepRun emulation view bytes exampleMem s := .process .start hrun
      have hanswers := (@eeprom_emulated _ _ _ _ _ _ _ true chip store rfl rfl rfl run).1
      have hreplies : (⟨64, true, fun _ => 0⟩ : Eeprom).replies
          [.write 3 0xBEEF, .read 3, .read 32, .unknown] =
          [⟨false, []⟩, ⟨false, [0xEF, 0xBE, 0, 0, 0, 0, 0, 0]⟩, ⟨true, []⟩, ⟨true, []⟩] := by
        decide +kernel
      rw [hops] at hanswers
      exact ⟨s, run, hreplies ▸ hanswers⟩
  | fault e => cases hseen
  | diverge => cases hseen

end EepScript

end Soes
