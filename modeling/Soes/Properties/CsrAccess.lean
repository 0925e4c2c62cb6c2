import Soes.Properties.CsrChunks
import Soes.Properties.HalWaits
import Soes.Stack.RegisterFile

/-!
# Register access

`ESC_read` and `ESC_write` reach a register of the ESC by commands to the LAN9252: a command has an
address and a size, and must not be given while another is in progress.  `CsrChip` is what the code
relies on: a chip that answers every transfer, fetches and stores the bytes that a legal command is
about, and is done with it within the timeout.

On such a chip an access of any length within the register space is the accesses of `csrChunks`, in
order; a read returns the bytes of the registers, and a write changes these bytes and no others
(`register_access`).
-/

namespace Soes

namespace Hal

open Program ByteStore

variable {χ : Type} {env : HalEnv χ} {k : ℕ} {s : HalMem χ}

/-! ## The chip -/

/-- A command for an access to the registers. -/
inductive CsrAccess where
  /-- A read of some bytes at an address. -/
  | read (address size : ℕ)
  /-- A write. -/
  | write (address size : ℕ)
  deriving DecidableEq, Repr

/-- What is in the data register of the LAN9252. -/
inductive CsrData where
  /-- Nothing that is known. -/
  | unknown
  /-- A value for a write. -/
  | loaded (value : Dword)
  /-- What a read fetches. -/
  | fetched (address size : ℕ)
  deriving DecidableEq, Repr

/-- The registers behind the LAN9252. -/
structure CsrView where
  regs : ByteStore
  data : CsrData
  accesses : List CsrAccess

/-- The last address behind the registers. -/
abbrev csrEnd : ℕ := 0x1000

/-- A chip that carries out the commands for registers, each within the timeout. -/
structure CsrChip (spi : Spi χ) (timeout : ℕ) where
  view : χ → CsrView
  free : χ → Prop
  /-- When the command in progress is done, at the latest. -/
  due : χ → ℕ
  prompt : ∀ c, due c ≤ spi.clock c + timeout
  load : ∀ c value, free c →
    Answered spi c (frameWrite escCsrDataReg value) frameLen fun _ c' =>
      free c' ∧ view c' = { view c with data := .loaded value }
  write : ∀ c value address size, free c → (view c).data = .loaded value →
    LegalAccess address size → address + size ≤ csrEnd →
    Answered spi c (frameWrite escCsrCmdReg (escCsrCmd escCsrCmdWrite size address)) frameLen
      fun _ c' => view c' = ⟨(view c).regs.copy address size (ofDword value) 0, .unknown,
        (view c).accesses ++ [.write address size]⟩
  read : ∀ c address size, free c → LegalAccess address size → address + size ≤ csrEnd →
    Answered spi c (frameWrite escCsrCmdReg (escCsrCmd escCsrCmdRead size address)) frameLen
      fun _ c' => view c' = ⟨(view c).regs, .fetched address size,
        (view c).accesses ++ [.read address size]⟩
  /-- The data register is read; it has what has been fetched once the command is done. -/
  fetch : ∀ c, Answered spi c (frameRead escCsrDataReg) frameLen fun f c' =>
    view c' = view c ∧ (free c → free c' ∧ ∀ address size,
      LegalAccess address size → (view c).data = .fetched address size →
        (ofDword (frameValue f)).bytes 0 size = (view c).regs.bytes address size)
  /-- A command register is read: it is not busy, or busy until later. -/
  poll : ∀ c, ∀ reg ∈ [escCsrCmdReg, escPramRdCmdReg, escPramWrCmdReg],
    Answered spi c (frameRead reg) frameLen fun f c' =>
      view c' = view c ∧ (free c → free c') ∧ due c' ≤ due c ∧ spi.clock c < spi.clock c' ∧
        (frameValue f &&& escCsrCmdBusy = 0 → reg = escCsrCmdReg → free c') ∧
        (frameValue f &&& escCsrCmdBusy ≠ 0 → spi.clock c' < due c')
  pram : ∀ c value, ∀ reg ∈ [escPramRdCmdReg, escPramRdAddrLenReg, escPramWrCmdReg,
    escPramWrAddrLenReg], Answered spi c (frameWrite reg value) frameLen fun _ c' =>
      view c' = view c ∧ (free c → free c')

section chip

variable (chip : CsrChip env.spi env.timeout)

/-- The wait for a command register. -/
lemma CsrChip.wp_waitUntil {reg : ℕ} {v : CsrView} {kept : Prop}
    (hreg : reg ∈ [escCsrCmdReg, escPramRdCmdReg, escPramWrCmdReg]) (hs : s.hwFault = false)
    (hv : chip.view s.chip = v) (hkept : kept → chip.free s.chip) (hk : env.timeout < k) :
    wp env k (waitUntil reg escCsrCmdBusy 0) (fun _ s' => chip.view s'.chip = v ∧
      (kept ∨ reg = escCsrCmdReg → chip.free s'.chip) ∧ Usable s s') s := by
  have hwait : wp env k (waitUntil reg escCsrCmdBusy 0) (fun value s' =>
      decide (value &&& escCsrCmdBusy = 0) = true ∧ (chip.view s'.chip = v ∧
        (kept ∨ reg = escCsrCmdReg → chip.free s'.chip)) ∧ Usable s s') s := by
    refine wp_poll (fun c => chip.view c = v ∧ (kept → chip.free c))
      (fun _ c => chip.view c = v ∧ (kept ∨ reg = escCsrCmdReg → chip.free c)) chip.due hs
      ⟨hv, hkept⟩ (chip.prompt _) hk fun c ⟨hvc, hkc⟩ => ?_
    obtain ⟨f, c', hxfer, hview, hfree, hdue, hclock, hdone, hbusy⟩ := chip.poll c reg hreg
    refine ⟨f, c', hxfer, hdue, hclock, ?_, ?_⟩
    · intro haccept
      refine ⟨hview.trans hvc, fun h => ?_⟩
      rcases h with h | h
      · exact hfree (hkc h)
      · exact hdone (of_decide_eq_true haccept) h
    · intro haccept
      exact ⟨⟨hview.trans hvc, fun h => hfree (hkc h)⟩, hbusy (of_decide_eq_false haccept)⟩
  exact hwait.mono fun _ s' ⟨_, ⟨hview, hfree⟩, husable⟩ => ⟨hview, hfree, husable⟩

/-- One command reads the bytes of the registers that it is about. -/
lemma CsrChip.wp_escReadCsr {address size : ℕ} (hs : s.hwFault = false)
    (hfree : chip.free s.chip) (hlegal : LegalAccess address size)
    (hend : address + size ≤ csrEnd) (hk : env.timeout < k) :
    wp env k (escReadCsr address size) (fun bytes s' =>
      bytes.bytes 0 size = (chip.view s.chip).regs.bytes address size ∧ chip.free s'.chip ∧
        chip.view s'.chip = ⟨(chip.view s.chip).regs, .fetched address size,
          (chip.view s.chip).accesses ++ [.read address size]⟩ ∧ Usable s s') s := by
  generalize hv : (⟨(chip.view s.chip).regs, .fetched address size,
    (chip.view s.chip).accesses ++ [.read address size]⟩ : CsrView) = v
  have hregs : (chip.view s.chip).regs = v.regs := by rw [← hv]
  have hdata : v.data = .fetched address size := by rw [← hv]
  have hmem : escCsrCmdReg ∈ [escCsrCmdReg, escPramRdCmdReg, escPramWrCmdReg] :=
    List.mem_cons_self ..
  rw [escReadCsr, wp_bind]
  refine wp_spiXfer (chip.read _ _ _ hfree hlegal hend) fun f₁ c₁ h₁ => ?_
  rw [hv] at h₁
  simp only [wp_bind]
  refine wp_spiXfer (chip.poll c₁ _ hmem) fun f₂ c₂ hthen => ?_
  obtain ⟨h₂, _, _, _, hdone, _⟩ := hthen
  rw [h₁] at h₂
  simp only [wp_bind]
  refine wp_spiXfer (chip.fetch c₂) fun f₃ c₃ hthen => ?_
  obtain ⟨h₃, hfetched⟩ := hthen
  rw [h₂] at h₃ hfetched
  have husable : Usable s { s with chip := c₃ } := (Usable.refl hs).withChip c₃
  simp only [escReadCsrValue]
  by_cases hbusy : frameValue f₂ &&& escCsrCmdBusy = 0
  · obtain ⟨hfree₃, hbytes⟩ := hfetched (hdone hbusy rfl)
    rw [if_neg (by simpa using hbusy), wp_pure, hregs]
    exact ⟨hbytes _ _ hlegal hdata, hfree₃, h₃, husable⟩
  · rw [if_pos (by simpa using hbusy), wp_bind]
    have hwait : wp env k (waitUntil escCsrCmdReg escCsrCmdBusy 0) (fun _ s' =>
        chip.view s'.chip = v ∧ (False ∨ escCsrCmdReg = escCsrCmdReg → chip.free s'.chip) ∧
          Usable { s with chip := c₃ } s') { s with chip := c₃ } :=
      chip.wp_waitUntil hmem hs h₃ False.elim hk
    refine hwait.mono fun _ s₄ hthen => ?_
    obtain ⟨h₄, hfree₄, husable₄⟩ := hthen
    rw [wp_get_bind, if_neg (by rw [husable₄.hwFault]; exact Bool.false_ne_true), wp_bind]
    refine wp_lan9252Read32 (chip.fetch _) fun f₅ c₅ hthen => ?_
    obtain ⟨h₅, hfetched₅⟩ := hthen
    rw [h₄] at h₅ hfetched₅
    obtain ⟨hfree₅, hbytes⟩ := hfetched₅ (hfree₄ (.inr rfl))
    rw [wp_pure, hregs]
    exact ⟨hbytes _ _ hlegal hdata, hfree₅, h₅, (husable.trans husable₄).withChip c₅⟩

/-- One command stores the bytes that it is about. -/
lemma CsrChip.wp_escWriteCsr {address size pos : ℕ} {buf : ByteStore} (hs : s.hwFault = false)
    (hfree : chip.free s.chip) (hlegal : LegalAccess address size)
    (hend : address + size ≤ csrEnd) (hk : env.timeout < k) :
    wp env k (escWriteCsr address buf pos size) (fun _ s' => chip.free s'.chip ∧
      chip.view s'.chip = ⟨(chip.view s.chip).regs.copy address size buf pos, .unknown,
        (chip.view s.chip).accesses ++ [.write address size]⟩ ∧ Usable s s') s := by
  have hmem : escCsrCmdReg ∈ [escCsrCmdReg, escPramRdCmdReg, escPramWrCmdReg] :=
    List.mem_cons_self ..
  generalize hvalue : (ByteStore.copy (fun _ => 0) 0 size buf pos).dword 0 = value
  have hbytes (m : ByteStore) : m.copy address size (ofDword value) 0 =
      m.copy address size buf pos := by
    refine copy_congr fun i hi => ?_
    have hsizes := hlegal.sizes
    have hin : 0 ≤ 0 + i ∧ 0 + i < 0 + size := ⟨Nat.zero_le _, by omega⟩
    rw [← hvalue, Nat.zero_add, ofDword_dword (by omega)]
    refine (if_pos hin).trans ?_
    rw [Nat.zero_add, Nat.sub_zero]
  generalize hv : (⟨(chip.view s.chip).regs.copy address size buf pos, .unknown,
    (chip.view s.chip).accesses ++ [.write address size]⟩ : CsrView) = v
  rw [escWriteCsr, hvalue, wp_bind]
  refine wp_spiXfer (chip.load _ _ hfree) fun f₁ c₁ hthen => ?_
  obtain ⟨hfree₁, h₁⟩ := hthen
  have hloaded : (chip.view c₁).data = .loaded value := by rw [h₁]
  rw [when, if_pos (by exact rfl), wp_bind]
  refine wp_spiXfer (chip.write _ _ _ _ hfree₁ hloaded hlegal hend) fun f₂ c₂ h₂ => ?_
  rw [h₁, hbytes, hv] at h₂
  rw [when, if_pos (by exact rfl), wp_bind]
  refine wp_spiXfer (chip.poll c₂ _ hmem) fun f₃ c₃ hthen => ?_
  obtain ⟨h₃, _, _, _, hdone, _⟩ := hthen
  rw [h₂] at h₃
  have husable : Usable s { s with chip := c₃ } := (Usable.refl hs).withChip c₃
  refine .when (fun _ => ?_) fun hidle => ⟨hdone (not_not.mp hidle) rfl, h₃, husable⟩
  rw [wp_bind]
  have hwait : wp env k (waitUntil escCsrCmdReg escCsrCmdBusy 0) (fun _ s' =>
      chip.view s'.chip = v ∧ (False ∨ escCsrCmdReg = escCsrCmdReg → chip.free s'.chip) ∧
        Usable { s with chip := c₃ } s') { s with chip := c₃ } :=
    chip.wp_waitUntil hmem hs h₃ False.elim hk
  refine hwait.mono fun _ s₄ hthen => ?_
  obtain ⟨h₄, hfree₄, husable₄⟩ := hthen
  rw [wp_pure]
  exact ⟨hfree₄ (.inr rfl), h₄, husable.trans husable₄⟩

/-! ## Accesses -/

/-- What a read or write has done: the accesses of its chunks, with those behind it. -/
def accessesOf (access : ℕ → ℕ → CsrAccess) (chunks : List (ℕ × ℕ)) : List CsrAccess :=
  chunks.map fun x => access x.1 x.2

/-- The variables of the loops when `done` bytes of an access are done. -/
structure CsrTransfer.At (address len done : ℕ) (t : CsrTransfer) : Prop where
  le : done ≤ len
  pos : t.pos = done
  address : t.address = address + done
  len : t.len = len - done

/-- A chunk goes on behind the one before. -/
lemma CsrTransfer.At.advance {address len done : ℕ} {t : CsrTransfer} (h : t.At address len done)
    (hend : address + len ≤ csrEnd) (hlen : t.len ≠ 0) :
    LegalAccess t.address (csrChunkSize t.address t.len) ∧
      t.address + csrChunkSize t.address t.len ≤ csrEnd ∧
      (t.advance (csrChunkSize t.address t.len)).len < t.len ∧
      (t.advance (csrChunkSize t.address t.len)).At address len
        (done + csrChunkSize t.address t.len) ∧
      csrChunks t.address t.len = (t.address, csrChunkSize t.address t.len) ::
        csrChunks (t.advance (csrChunkSize t.address t.len)).address
          (t.advance (csrChunkSize t.address t.len)).len := by
  obtain ⟨hlegal, hle⟩ := @csrChunkSize_legal t.address _ hlen
  have hchunks := @csrChunks_of_ne_zero t.address _ hlen
  have hpos := @csrChunkSize_pos t.address _ hlen
  generalize csrChunkSize t.address t.len = size at *
  have hend' : csrEnd = 4096 := rfl
  have hdone := h.le
  have haddress := h.address
  have hleft := h.len
  have hnext : (t.advance size).address = t.address + size := Nat.mod_eq_of_lt (by omega)
  refine ⟨hlegal, by omega, ?_, ⟨by omega, ?_, ?_, ?_⟩, ?_⟩
  · change t.len - size < t.len
    omega
  · change t.pos + size = done + size
    rw [h.pos]
  · rw [hnext, haddress, Nat.add_assoc]
  · change t.len - size = len - (done + size)
    omega
  · rw [hnext]
    exact hchunks

/-- The loop of `ESC_read` reads the registers. -/
lemma CsrChip.wp_csrRead {address len : ℕ} {buf : ByteStore} (hs : s.hwFault = false)
    (hfree : chip.free s.chip) (hend : address + len ≤ csrEnd) (hk : env.timeout + len < k) :
    wp env k (loop csrReadRound ⟨address, len, 0, buf⟩) (fun buf' s' =>
      buf' = buf.copy 0 len (chip.view s.chip).regs address ∧ chip.free s'.chip ∧
        (chip.view s'.chip).regs = (chip.view s.chip).regs ∧
        (chip.view s'.chip).accesses = (chip.view s.chip).accesses ++
          accessesOf .read (csrChunks address len) ∧ Usable s s') s := by
  generalize hall : (chip.view s.chip).accesses ++ accessesOf .read (csrChunks address len) = all
  generalize hregs : (chip.view s.chip).regs = regs
  refine wp_loop (fun t s' => (∃ done, t.At address len done ∧
      t.buf = buf.copy 0 done regs address) ∧ chip.free s'.chip ∧ (chip.view s'.chip).regs = regs ∧
        (chip.view s'.chip).accesses ++ accessesOf .read (csrChunks t.address t.len) = all ∧
        Usable s s') (fun t _ => t.len)
        ⟨⟨0, ⟨Nat.zero_le _, rfl, rfl, rfl⟩, ?_⟩, hfree, hregs, hall,
      .refl hs⟩ (by exact Nat.lt_of_le_of_lt (Nat.le_add_left _ _) hk) ?_
  · funext x
    exact (if_neg (by omega)).symm
  intro t s₁ ⟨⟨done, hat, hbuf⟩, hfree₁, hregs₁, hall₁, husable⟩
  rw [csrReadRound]
  by_cases hdone : t.len = 0
  · have hlen := hat.len
    have hle := hat.le
    have heq : done = len := by omega
    rw [if_pos hdone, wp_pure, hbuf, heq]
    rw [hdone, csrChunks_zero] at hall₁
    exact ⟨rfl, hfree₁, hregs₁, (List.append_nil _).symm.trans hall₁, husable⟩
  · obtain ⟨hlegal, hsize, hless, hnext, hchunks⟩ := hat.advance hend hdone
    rw [if_neg hdone, wp_bind]
    refine (chip.wp_escReadCsr husable.hwFault hfree₁ hlegal hsize (by omega)).mono
      fun bytes s₂ ⟨hbytes, hfree₂, hview₂, husable₂⟩ => ?_
    rw [wp_pure]
    refine ⟨⟨⟨_, ⟨hnext.le, hnext.pos, hnext.address, hnext.len⟩, ?_⟩, hfree₂, ?_, ?_,
      husable.trans husable₂⟩, hless⟩
    · change t.buf.copy t.pos _ bytes 0 = _
      rw [copy_of_bytes hbytes, hregs₁, hbuf, hat.pos, hat.address]
      have hcopy := @copy_copy buf regs 0 address done (csrChunkSize (address + done) t.len)
      rw [Nat.zero_add] at hcopy
      exact hcopy
    · rw [hview₂]
      exact hregs₁
    · rw [hview₂, List.append_assoc]
      rw [hchunks] at hall₁
      exact hall₁

/-- The loop of `ESC_write` stores its bytes. -/
lemma CsrChip.wp_csrWrite {address len : ℕ} {buf : ByteStore} (hs : s.hwFault = false)
    (hfree : chip.free s.chip) (hend : address + len ≤ csrEnd) (hk : env.timeout + len < k) :
    wp env k (loop csrWriteRound ⟨address, len, 0, buf⟩) (fun _ s' => chip.free s'.chip ∧
        (chip.view s'.chip).regs = (chip.view s.chip).regs.copy address len buf 0 ∧
        (chip.view s'.chip).accesses = (chip.view s.chip).accesses ++
          accessesOf .write (csrChunks address len) ∧ Usable s s') s := by
  generalize hall : (chip.view s.chip).accesses ++ accessesOf .write (csrChunks address len) = all
  generalize hregs : (chip.view s.chip).regs = regs
  refine wp_loop (fun t s' => (∃ done, t.At address len done ∧ t.buf = buf ∧
      (chip.view s'.chip).regs = regs.copy address done buf 0) ∧ chip.free s'.chip ∧
        (chip.view s'.chip).accesses ++ accessesOf .write (csrChunks t.address t.len) = all ∧
        Usable s s') (fun t _ => t.len) ⟨⟨0, ⟨Nat.zero_le _, rfl, rfl, rfl⟩, rfl, ?_⟩, hfree, hall,
      .refl hs⟩ (by exact Nat.lt_of_le_of_lt (Nat.le_add_left _ _) hk) ?_
  · rw [hregs]
    funext x
    exact (if_neg (by omega)).symm
  intro t s₁ ⟨⟨done, hat, hbuf, hregs₁⟩, hfree₁, hall₁, husable⟩
  rw [csrWriteRound]
  by_cases hdone : t.len = 0
  · have hlen := hat.len
    have hle := hat.le
    have heq : done = len := by omega
    rw [if_pos hdone, wp_pure, hregs₁, heq]
    rw [hdone, csrChunks_zero] at hall₁
    exact ⟨hfree₁, rfl, (List.append_nil _).symm.trans hall₁, husable⟩
  · obtain ⟨hlegal, hsize, hless, hnext, hchunks⟩ := hat.advance hend hdone
    rw [if_neg hdone, wp_bind]
    refine (chip.wp_escWriteCsr husable.hwFault hfree₁ hlegal hsize (by omega)).mono
      fun _ s₂ ⟨hfree₂, hview₂, husable₂⟩ => ?_
    rw [wp_pure]
    refine ⟨⟨⟨_, hnext, hbuf, ?_⟩, hfree₂, ?_, husable.trans husable₂⟩, hless⟩
    · rw [hview₂]
      change (chip.view s₁.chip).regs.copy t.address _ t.buf t.pos = _
      rw [hregs₁, hbuf, hat.pos, hat.address]
      have hcopy := @copy_copy regs buf address 0 done (csrChunkSize (address + done) t.len)
      rw [Nat.zero_add] at hcopy
      exact hcopy
    · rw [hview₂, List.append_assoc]
      rw [hchunks] at hall₁
      exact hall₁

/-- The start of a transfer of the process RAM leaves the registers alone. -/
lemma CsrChip.wp_pramStart {cmdReg addrLenReg address len : ℕ} {v : CsrView}
    (hcmd : cmdReg ∈ [escCsrCmdReg, escPramRdCmdReg, escPramWrCmdReg])
    (hcmd' : cmdReg ∈ [escPramRdCmdReg, escPramRdAddrLenReg, escPramWrCmdReg, escPramWrAddrLenReg])
    (haddr : addrLenReg ∈ [escPramRdCmdReg, escPramRdAddrLenReg, escPramWrCmdReg,
      escPramWrAddrLenReg]) (hs : s.hwFault = false) (hfree : chip.free s.chip)
    (hv : chip.view s.chip = v) (hk : env.timeout < k) :
    wp env k (pramStart cmdReg addrLenReg address len) (fun started s' => started = true ∧
      chip.free s'.chip ∧ chip.view s'.chip = v ∧ Usable s s') s := by
  rw [pramStart, wp_bind]
  refine wp_lan9252Write32 (chip.pram _ _ _ hcmd') fun f₁ c₁ ⟨h₁, hfree₁⟩ => ?_
  rw [wp_bind]
  have husable₁ : Usable s { s with chip := c₁ } := (Usable.refl hs).withChip c₁
  have hwait : wp env k (waitUntil cmdReg escCsrCmdBusy 0) (fun _ s' => chip.view s'.chip = v ∧
      (True ∨ cmdReg = escCsrCmdReg → chip.free s'.chip) ∧ Usable { s with chip := c₁ } s')
      { s with chip := c₁ } :=
    chip.wp_waitUntil hcmd hs (h₁.trans hv) (fun _ => hfree₁ hfree) hk
  refine hwait.mono fun _ s₂ ⟨h₂, hfree₂, husable₂⟩ => ?_
  rw [wp_get_bind, if_neg (by rw [husable₂.hwFault]; exact Bool.false_ne_true), wp_bind]
  refine wp_lan9252Write32 (chip.pram _ _ _ haddr) fun f₃ c₃ ⟨h₃, hfree₃⟩ => ?_
  rw [wp_bind]
  refine wp_lan9252Write32 (chip.pram _ _ _ hcmd') fun f₄ c₄ ⟨h₄, hfree₄⟩ => ?_
  rw [wp_pure]
  have hfree' := hfree₄ (hfree₃ (hfree₂ (.inl trivial)))
  exact ⟨rfl, hfree', h₄.trans (h₃.trans h₂),
    ((husable₁.trans husable₂).withChip c₃).withChip c₄⟩

/-- The access of `ESC_read`.  At the end of the registers it is an empty one of the process RAM. -/
lemma CsrChip.wp_escReadBytes {address len : ℕ} {buf : ByteStore} (hs : s.hwFault = false)
    (hfree : chip.free s.chip) (hend : address + len ≤ csrEnd) (hk : env.timeout + len < k) :
    wp env k (escReadBytes address buf len) (fun buf' s' =>
      buf' = buf.copy 0 len (chip.view s.chip).regs address ∧ chip.free s'.chip ∧
        (chip.view s'.chip).regs = (chip.view s.chip).regs ∧
        (chip.view s'.chip).accesses = (chip.view s.chip).accesses ++
          accessesOf .read (csrChunks address len) ∧ Usable s s') s := by
  rw [escReadBytes]
  by_cases hram : 0x1000 ≤ address
  · have hzero : len = 0 := by
      simp only [csrEnd] at hend
      omega
    subst hzero
    rw [if_pos hram, escReadPram, wp_bind]
    refine (chip.wp_pramStart (by decide) (by decide) (by decide) hs hfree rfl (by omega)).mono
      fun started s₁ ⟨hstarted, hfree₁, hview₁, husable⟩ => ?_
    rw [if_pos hstarted]
    refine wp_loop (fun t s' => t = ⟨buf, 0, 0⟩ ∧ s' = s₁) (fun _ _ => 0) ⟨rfl, rfl⟩
      (by omega) ?_
    rintro t s₂ ⟨rfl, rfl⟩
    rw [pramReadRound, if_pos rfl, wp_pure, hview₁, csrChunks_zero]
    refine ⟨?_, hfree₁, rfl, (List.append_nil _).symm, husable⟩
    funext x
    exact (if_neg (by omega)).symm
  · rw [if_neg hram]
    exact chip.wp_csrRead hs hfree hend hk

/-- The access of `ESC_write`. -/
lemma CsrChip.wp_escWriteBytes {address len : ℕ} {buf : ByteStore} (hs : s.hwFault = false)
    (hfree : chip.free s.chip) (hend : address + len ≤ csrEnd) (hk : env.timeout + len < k) :
    wp env k (escWriteBytes address buf len) (fun _ s' => chip.free s'.chip ∧
        (chip.view s'.chip).regs = (chip.view s.chip).regs.copy address len buf 0 ∧
        (chip.view s'.chip).accesses = (chip.view s.chip).accesses ++
          accessesOf .write (csrChunks address len) ∧ Usable s s') s := by
  rw [escWriteBytes]
  by_cases hram : 0x1000 ≤ address
  · have hzero : len = 0 := by
      simp only [csrEnd] at hend
      omega
    subst hzero
    rw [if_pos hram, escWritePram, wp_bind]
    refine (chip.wp_pramStart (by decide) (by decide) (by decide) hs hfree rfl (by omega)).mono
      fun started s₁ ⟨hstarted, hfree₁, hview₁, husable⟩ => ?_
    rw [when, if_pos hstarted]
    refine wp_loop (fun t s' => t = ⟨buf, 0, 0⟩ ∧ s' = s₁) (fun _ _ => 0) ⟨rfl, rfl⟩
      (by omega) ?_
    rintro t s₂ ⟨rfl, rfl⟩
    rw [pramWriteRound, if_pos rfl, wp_pure, hview₁, csrChunks_zero]
    refine ⟨hfree₁, ?_, (List.append_nil _).symm, husable⟩
    funext x
    exact (if_neg (by omega)).symm
  · rw [if_neg hram]
    exact chip.wp_csrWrite hs hfree hend hk

/-- The access behind an access, to the AL event register. -/
def tailAccesses (opts : Options) (address : ℕ) : List CsrAccess :=
  if aleventTailNeeded opts address then [.read escregAlevent 4] else []

/-- What is read behind an access is read only. -/
lemma CsrChip.wp_aleventTail {address : ℕ} (hs : s.hwFault = false) (hfree : chip.free s.chip)
    (hk : env.timeout < k) :
    wp env k (aleventTail address) (fun _ s' => s'.hwFault = false ∧
      (chip.view s'.chip).regs = (chip.view s.chip).regs ∧ (chip.view s'.chip).accesses =
        (chip.view s.chip).accesses ++ tailAccesses env.opts address) s := by
  rw [aleventTail, wp_ask_bind, tailAccesses]
  refine .when (fun htail => ?_) fun hnone => ?_
  · have hlegal : LegalAccess escregAlevent 4 := ⟨.inr (.inr rfl), by decide⟩
    rw [wp_bind, if_pos htail]
    refine (chip.wp_escReadCsr hs hfree hlegal (by decide) hk).mono
      fun bytes s₁ ⟨_, _, hview, husable⟩ => ?_
    rw [wp_modify]
    exact ⟨husable.hwFault, by rw [hview], by rw [hview]⟩
  · rw [if_neg hnone]
    exact ⟨hs, rfl, (List.append_nil _).symm⟩

end chip

variable {address len : ℕ} {buf : ByteStore}

/-- **Register access is legal, complete and exact.**  The chunks are the access, once and in order,
each of them one that the chip has.  A read gives these accesses and returns the bytes of the
registers; a write gives them and stores its bytes, and no others.  Both end without a fault. -/
theorem register_access (chip : CsrChip env.spi env.timeout) (hs : s.hwFault = false)
    (hfd : 0 ≤ s.spiFd) (hfree : chip.free s.chip) (hend : address + len ≤ csrEnd)
    (hk : env.timeout + len < k) :
    (Tiles address len (csrChunks address len) ∧
      ∀ x ∈ csrChunks address len, LegalAccess x.1 x.2) ∧
    wp env k (escRead address buf len) (fun buf' s' => s'.hwFault = false ∧
      buf' = buf.copy 0 len (chip.view s.chip).regs address ∧
      (chip.view s'.chip).regs = (chip.view s.chip).regs ∧
      (chip.view s'.chip).accesses = (chip.view s.chip).accesses ++
        accessesOf .read (csrChunks address len) ++ tailAccesses env.opts address) s ∧
    wp env k (escWrite address buf len) (fun _ s' => s'.hwFault = false ∧
      (chip.view s'.chip).regs = (chip.view s.chip).regs.copy address len buf 0 ∧
      (chip.view s'.chip).accesses = (chip.view s.chip).accesses ++
        accessesOf .write (csrChunks address len) ++ tailAccesses env.opts address) s := by
  have husable : ¬ (s.hwFault = true ∨ s.spiFd < 0) := by
    rw [not_or, hs]
    exact ⟨Bool.false_ne_true, Int.not_lt.mpr hfd⟩
  refine ⟨⟨csrChunks_tiles address len, csrChunks_legal address len⟩, ?_, ?_⟩
  · rw [escRead, wp_get_bind, if_neg husable, wp_bind]
    refine (chip.wp_escReadBytes hs hfree hend hk).mono
      fun buf' s₁ hthen => ?_
    obtain ⟨hbuf, hfree₁, hregs, haccesses, husable₁⟩ := hthen
    rw [wp_bind, escReadTail, ← hregs, ← haccesses]
    by_cases hevent : address = escregAlevent ∧ 4 ≤ len
    · have hnone : tailAccesses env.opts address = [] := by
        rw [tailAccesses, hevent.1]
        simp [aleventTailNeeded]
      rw [if_pos hevent, wp_modify, wp_pure, hnone, List.append_nil]
      rw [← hregs] at hbuf
      exact ⟨husable₁.hwFault, hbuf, rfl, rfl⟩
    · rw [if_neg hevent]
      refine (chip.wp_aleventTail husable₁.hwFault hfree₁ (by omega)).mono
        fun _ s₂ hthen => ?_
      obtain ⟨hs₂, hregs₂, haccesses₂⟩ := hthen
      rw [wp_pure]
      rw [← hregs] at hbuf
      exact ⟨hs₂, hbuf, hregs₂, haccesses₂⟩
  · rw [escWrite, wp_get_bind, when, if_pos husable, wp_bind]
    refine (chip.wp_escWriteBytes hs hfree hend hk).mono
      fun _ s₁ hthen => ?_
    obtain ⟨hfree₁, hregs, haccesses, husable₁⟩ := hthen
    rw [← hregs, ← haccesses]
    exact chip.wp_aleventTail husable₁.hwFault hfree₁ (by omega)

/-! ## A chip that is never busy -/

/-- The address of a register in a transfer. -/
def registerOf (b : ByteStore) : ℕ := (b 1).toNat * 256 + (b 2).toNat

/-- A command for a register is carried out. -/
def CsrView.command (v : CsrView) (cmd : ℕ) : CsrView :=
  let address := cmd % 65536
  let size := cmd / 65536 % 8
  if cmd / 1073741824 % 2 = 1 then
    ⟨v.regs, .fetched address size, v.accesses ++ [.read address size]⟩
  else match v.data with
    | .loaded value =>
        ⟨v.regs.copy address size (ofDword value) 0, .unknown, v.accesses ++ [.write address size]⟩
    | _ => v

/-- A transfer is taken. -/
def CsrView.take (v : CsrView) (b : ByteStore) : CsrView :=
  if b 0 ≠ escCmdSerialWrite then v
  else if registerOf b = escCsrDataReg then { v with data := .loaded (frameValue b) }
  else if registerOf b = escCsrCmdReg then v.command (frameValue b).toNat
  else v

/-- What the data register reads as. -/
def CsrView.dataValue (v : CsrView) : Dword :=
  match v.data with
  | .unknown => 0
  | .loaded value => value
  | .fetched address _ => v.regs.dword address

/-- A chip that is never busy, with a clock that counts the transfers. -/
def promptChip : Spi (CsrView × ℕ) where
  xfer c b _ := (some (frameWrite 0 (if registerOf b = escCsrDataReg then c.1.dataValue else 0)),
    (c.1.take b, c.2 + 1))
  clock c := c.2

section prompt

lemma frameValue_frameWrite (reg : ℕ) (value : Dword) :
    frameValue (frameWrite reg value) = value := (dword_bytes value).symm

lemma registerOf_frameWrite {reg : ℕ} (value : Dword) (hreg : reg < 65536) :
    registerOf (frameWrite reg value) = reg := by
  change (BitVec.ofNat 8 (reg / 256)).toNat * 256 + (BitVec.ofNat 8 reg).toNat = reg
  rw [BitVec.toNat_ofNat, BitVec.toNat_ofNat]
  omega

lemma registerOf_frameRead {reg : ℕ} (hreg : reg < 65536) : registerOf (frameRead reg) = reg := by
  change (BitVec.ofNat 8 (reg / 256)).toNat * 256 + (BitVec.ofNat 8 reg).toNat = reg
  rw [BitVec.toNat_ofNat, BitVec.toNat_ofNat]
  omega

/-- The fields of a command. -/
lemma escCsrCmd_toNat {cmd : Dword} {size address high : ℕ}
    (hcmd : (cmd ||| (BitVec.ofNat 32 size <<< 16)).toNat = 2 ^ 16 * high)
    (haddress : address < 2 ^ 16) :
    (escCsrCmd cmd size address).toNat = 65536 * high + address := by
  have hnat : (BitVec.ofNat 32 address).toNat = address := by
    rw [BitVec.toNat_ofNat]
    omega
  rw [escCsrCmd, BitVec.toNat_or, hcmd, hnat, ← Nat.two_pow_add_eq_or_of_lt haddress]

/-- A read command is taken for what it is. -/
lemma CsrView.take_read (v : CsrView) {address size : ℕ} (hlegal : LegalAccess address size)
    (hend : address + size ≤ csrEnd) :
    v.take (frameWrite escCsrCmdReg (escCsrCmd escCsrCmdRead size address)) =
      ⟨v.regs, .fetched address size, v.accesses ++ [.read address size]⟩ := by
  have haddress : address < 2 ^ 16 := by
    simp only [csrEnd] at hend
    omega
  have hvalue : (escCsrCmd escCsrCmdRead size address).toNat =
      65536 * (49152 + size) + address := by
    refine escCsrCmd_toNat ?_ haddress
    rcases hlegal.sizes with rfl | rfl | rfl <;> decide
  have hsizes := hlegal.sizes
  have hread : (65536 * (49152 + size) + address) / 1073741824 % 2 = 1 := by omega
  have haddress' : (65536 * (49152 + size) + address) % 65536 = address := by omega
  have hsize : (65536 * (49152 + size) + address) / 65536 % 8 = size := by omega
  rw [CsrView.take, if_neg (by exact not_not.mpr rfl), registerOf_frameWrite _ (by decide),
    if_neg (by decide), if_pos rfl, frameValue_frameWrite, hvalue, CsrView.command, haddress',
    hsize,
    if_pos hread]

/-- A write command is taken for what it is. -/
lemma CsrView.take_write (v : CsrView) {value : Dword} {address size : ℕ}
    (hdata : v.data = .loaded value) (hlegal : LegalAccess address size)
    (hend : address + size ≤ csrEnd) :
    v.take (frameWrite escCsrCmdReg (escCsrCmd escCsrCmdWrite size address)) =
      ⟨v.regs.copy address size (ofDword value) 0, .unknown,
        v.accesses ++ [.write address size]⟩ := by
  have haddress : address < 2 ^ 16 := by
    simp only [csrEnd] at hend
    omega
  have hvalue : (escCsrCmd escCsrCmdWrite size address).toNat =
      65536 * (32768 + size) + address := by
    refine escCsrCmd_toNat ?_ haddress
    rcases hlegal.sizes with rfl | rfl | rfl <;> decide
  have hsizes := hlegal.sizes
  have hread : ¬ (65536 * (32768 + size) + address) / 1073741824 % 2 = 1 := by omega
  have haddress' : (65536 * (32768 + size) + address) % 65536 = address := by omega
  have hsize : (65536 * (32768 + size) + address) / 65536 % 8 = size := by omega
  rw [CsrView.take, if_neg (by exact not_not.mpr rfl), registerOf_frameWrite _ (by decide),
    if_neg (by decide), if_pos rfl, frameValue_frameWrite, hvalue, CsrView.command, haddress',
    hsize,
    if_neg hread, hdata]

lemma promptChip_takes (c : CsrView × ℕ) {b : ByteStore} {v : CsrView} (hv : c.1.take b = v) :
    ∃ f, promptChip.xfer c b frameLen = (some f, (v, c.2 + 1)) := by
  rw [← hv]
  exact ⟨_, rfl⟩

/-- What is read from a register other than the data register. -/
lemma promptChip_reads {c : CsrView × ℕ} {reg : ℕ} (hreg : reg < 65536)
    (hne : reg ≠ escCsrDataReg) :
    promptChip.xfer c (frameRead reg) frameLen = (some (frameWrite 0 0), (c.1, c.2 + 1)) := by
  have htake : c.1.take (frameRead reg) = c.1 :=
    if_pos (by exact (by decide : escCmdSerialRead ≠ escCmdSerialWrite))
  change (some (frameWrite 0 (if registerOf (frameRead reg) = escCsrDataReg then _ else 0)), _) = _
  rw [registerOf_frameRead hreg, if_neg hne]
  exact congrArg (fun v => (some (frameWrite 0 0), v, c.2 + 1)) htake

/-- It carries out commands. -/
def promptCsr (timeout : ℕ) : CsrChip promptChip timeout where
  view c := c.1
  free _ := True
  due _ := 0
  prompt _ := Nat.zero_le _
  load c value _ := by
    have htake : c.1.take (frameWrite escCsrDataReg value) =
        { c.1 with data := .loaded value } := by
      rw [CsrView.take, if_neg (by exact not_not.mpr rfl), registerOf_frameWrite _ (by decide),
        if_pos rfl, frameValue_frameWrite]
    obtain ⟨f, hf⟩ := promptChip_takes c htake
    exact ⟨f, _, hf, trivial, rfl⟩
  write c value address size _ hdata hlegal hend := by
    obtain ⟨f, hf⟩ := promptChip_takes c (c.1.take_write hdata hlegal hend)
    exact ⟨f, _, hf, rfl⟩
  read c address size _ hlegal hend := by
    obtain ⟨f, hf⟩ := promptChip_takes c (c.1.take_read hlegal hend)
    exact ⟨f, _, hf, rfl⟩
  fetch c := by
    have htake : c.1.take (frameRead escCsrDataReg) = c.1 :=
      if_pos (by exact (by decide : escCmdSerialRead ≠ escCmdSerialWrite))
    refine ⟨_, _, rfl, htake, fun _ => ⟨trivial, fun address size hlegal hdata => ?_⟩⟩
    have hvalue : frameValue (frameWrite 0 (if registerOf (frameRead escCsrDataReg) = escCsrDataReg
        then c.1.dataValue else 0)) = c.1.regs.dword address := by
      rw [frameValue_frameWrite, registerOf_frameRead (by decide), if_pos rfl, CsrView.dataValue,
        hdata]
    refine bytes_congr fun i hi => ?_
    have hsizes := hlegal.sizes
    rw [hvalue, Nat.zero_add, ofDword_dword (by omega)]
  poll c reg hreg := by
    have hne : reg < 65536 ∧ reg ≠ escCsrDataReg := by
      simp only [List.mem_cons, List.not_mem_nil, or_false] at hreg
      rcases hreg with rfl | rfl | rfl <;> decide
    have hidle : frameValue (frameWrite 0 0) &&& escCsrCmdBusy = 0 := by
      rw [frameValue_frameWrite]
      exact BitVec.zero_and
    exact ⟨_, _, promptChip_reads hne.1 hne.2, rfl, fun _ => trivial, Nat.le_refl 0,
      Nat.lt_succ_self c.2, fun _ _ => trivial, fun hbusy => absurd hidle hbusy⟩
  pram c value reg hreg := by
    refine ⟨_, _, rfl, ?_, fun _ => trivial⟩
    change c.1.take (frameWrite reg value) = c.1
    have hne : reg < 65536 ∧ reg ≠ escCsrDataReg ∧ reg ≠ escCsrCmdReg := by
      simp only [List.mem_cons, List.not_mem_nil, or_false] at hreg
      rcases hreg with rfl | rfl | rfl | rfl <;> decide
    rw [CsrView.take, if_neg (by exact not_not.mpr rfl), registerOf_frameWrite _ hne.1,
      if_neg hne.2.1, if_neg hne.2.2]

/-- The HAL on this chip, whose registers have their addresses for contents. -/
def promptMem : HalMem (CsrView × ℕ) := ⟨(⟨fun a => .ofNat 8 a, .unknown, []⟩, 0), false, 3, 0⟩

/-- Seven bytes at an odd address are read and written. -/
theorem register_access_example :
    wp ⟨promptChip, 100, exampleOptions⟩ 200000000 (escRead 0x131 (fun _ => 0) 7)
      (fun buf' s' => s'.hwFault = false ∧
        buf' = ByteStore.copy (fun _ => 0) 0 7 (fun a => .ofNat 8 a) 0x131) promptMem ∧
    wp ⟨promptChip, 100, exampleOptions⟩ 200000000 (escWrite 0x131 (fun _ => 0) 7)
      (fun _ s' => s'.hwFault = false ∧
        s'.chip.1.regs = ByteStore.copy (fun a => .ofNat 8 a) 0x131 7 (fun _ => 0) 0)
      promptMem := by
  have haccess := @register_access _ ⟨promptChip, 100, exampleOptions⟩ 200000000 promptMem 0x131 7
    (fun _ => 0) (promptCsr _) rfl (by decide) trivial (by decide) (by decide)
  exact ⟨haccess.2.1.mono fun _ _ h => ⟨h.1, h.2.1⟩, haccess.2.2.mono fun _ _ h => ⟨h.1, h.2.1⟩⟩

end prompt

end Hal

end Soes
