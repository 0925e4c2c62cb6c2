import Soes.Properties.AlEffects
import Soes.Properties.GeneratedImage
import Soes.Stack.RegisterFile

/-!
# Starting a generated device

`ESC_checkmbx` and `ESC_checkSM23` compare what the master has written to the SyncManagers with the
constants that are compiled in, and refuse PREOP or SAFEOP if they differ.  A master writes what the
ESI says.  For a device whose stack is compiled with the generated options and the generated object
list, and a master that keeps to the generated ESI, these checks never refuse: what is left to
refuse SAFEOP is the check of the distributed clocks (`generated_start`).
-/

namespace Soes.GenOd

open Program

variable {σ : Type} {cfg : Cfg} {out : Output} {addr : Place → ℕ} {sys : System σ} {w : World σ}
  {n rxBytes txBytes : ℕ}

/-! ## Compiling and configuring -/

/-- The constants of a mailbox SyncManager are those of the options. -/
structure SmDefine.Compiles (d : SmDefine) (c : SmCfg) : Prop where
  sma : c.sma = .ofNat 16 d.sma
  sml : c.sml = .ofNat 16 d.sml
  smc : c.smc = .ofNat 8 d.smc

/-- A stack compiled with the generated files. -/
structure CompiledFrom (out : Output) (addr : Place → ℕ) (sys : System σ) : Prop where
  objects : sys.dict.objects = out.rows addr
  mbxSize : sys.opts.mbxSize = out.options.mbxsize
  mb0 : out.options.mbx0.Compiles sys.opts.mb0
  mb1 : out.options.mbx1.Compiles sys.opts.mb1
  sm2 : sys.opts.sm2Sma = .ofNat 16 out.options.sm2Sma ∧
    sys.opts.sm2Smc = .ofNat 8 out.options.sm2Smc ∧ sys.opts.sm2Act = .ofNat 8 out.options.sm2Act
  sm3 : sys.opts.sm3Sma = .ofNat 16 out.options.sm3Sma ∧
    sys.opts.sm3Smc = .ofNat 8 out.options.sm3Smc ∧ sys.opts.sm3Act = .ofNat 8 out.options.sm3Act
  maxMappings : sys.opts.maxMappingsSm2 = out.options.maxMappingsSm2 ∧
    sys.opts.maxMappingsSm3 = out.options.maxMappingsSm3

/-- The registers of a SyncManager as a master sets them up by its line of the ESI, for this
many bytes; it activates it if there are any. -/
structure EsiSm.SetsUp (sm : EsiSm) (bytes : ℕ) (r : EscSm) : Prop where
  psa : r.psa = .ofNat 16 sm.startAddress
  length : r.length = .ofNat 16 bytes
  command : r.command = .ofNat 8 sm.controlByte
  active : 0 < bytes → r.ecsm = true

/-- The registers of SyncManager `k` and of the next one, as the bus delivers them one after the
other. -/
def smPair (hal : Hal σ) (o : σ) (event : Dword) (k k' : Fin 4) : EscSm × EscSm :=
  let a := hal.read o event (escregSm0 + 8 * k) 8
  let a' := hal.read a.outside a.alEvent (escregSm0 + 8 * k') 8
  (.ofBytes a.data, .ofBytes a'.data)

/-- The bytes of a list of PDOs. -/
def bytesOfEsi (pdos : List EsiPdo) : ℕ := (bitsOfEsi (entriesOfEsi pdos) + 7) / 8

/-- The mailboxes are set up by the ESI: a mailbox has the size that its line says. -/
def MbxSetUp (esi : Esi) (hal : Hal σ) (o : σ) (event : Dword) : Prop :=
  ∃ sm0 sm1 size0 size1, esi.sms[0]? = some sm0 ∧ esi.sms[1]? = some sm1 ∧
    sm0.defaultSize = some size0 ∧ sm1.defaultSize = some size1 ∧
    sm0.SetsUp size0 (smPair hal o event 0 1).1 ∧ sm1.SetsUp size1 (smPair hal o event 0 1).2

/-- The process data is set up by the ESI: a SyncManager has the bytes of its PDOs. -/
def PdSetUp (esi : Esi) (hal : Hal σ) (o : σ) (event : Dword) : Prop :=
  ∃ sm2 sm3, esi.sms[2]? = some sm2 ∧ esi.sms[3]? = some sm3 ∧
    sm2.SetsUp (bytesOfEsi esi.rxPdos) (smPair hal o event 2 3).1 ∧
    sm3.SetsUp (bytesOfEsi esi.txPdos) (smPair hal o event 2 3).2

/-- What a request for SAFEOP comes to: inputs are started, or the distributed clocks are not
configured as the application wants them. -/
def StartedButDc (w : World σ) (r : Byte) (c' : AlCore) : Prop :=
  ∃ sml, (r = escSafeop ∧
      SameButDc { w.core with sm2Sml := sml, app := appstateInput, sm2 := true } c') ∨
    (r = escPreop ||| escError ∧ SameButDc ({ w.core with sm2Sml := sml } : AlCore).stopAll c')

/-! ## The checks -/

/-- A SyncManager that is active. -/
lemma active_and {r : EscSm} (h : r.ecsm = true) : r.actESC &&& escregSyncActActivated ≠ 0 := by
  intro hzero
  have hbit : (r.actESC &&& escregSyncActActivated).getLsbD 0 = true := by
    rw [BitVec.getLsbD_and]
    rw [show r.actESC.getLsbD 0 = true from h]
    rfl
  rw [hzero] at hbit
  cases hbit

/-- A mailbox that is set up passes. -/
lemma EsiSm.SetsUp.mbx {sm : EsiSm} {size : ℕ} {r : EscSm} {c : SmCfg} (h : sm.SetsUp size r)
    (hpos : 0 < size) (hsma : c.sma = .ofNat 16 sm.startAddress) (hsml : c.sml = .ofNat 16 size)
    (hsmc : c.smc = .ofNat 8 sm.controlByte) : mbxSmRefused r c = false := by
  have hactive := h.active hpos
  simp [mbxSmRefused, h.psa, h.length, h.command, hsma, hsml, hsmc, hactive]

/-- A SyncManager of process data that is set up passes. -/
lemma EsiSm.SetsUp.pd {sm : EsiSm} {bytes : ℕ} {r : EscSm} (h : sm.SetsUp bytes r)
    {sma sml : Word} {smc : Byte} (hsma : sma = .ofNat 16 sm.startAddress)
    (hsmc : smc = .ofNat 8 sm.controlByte) (hsml : sml = .ofNat 16 bytes) :
    pdSmRefused r sma smc 1 sml = false := by
  have hlength : 0 < sml → r.actESC &&& escregSyncActActivated ≠ 0 := by
    intro hlt
    apply active_and
    apply h.active
    rw [hsml, BitVec.lt_def, BitVec.toNat_ofNat] at hlt
    apply Nat.pos_of_ne_zero
    rintro rfl
    exact absurd hlt (by decide)
  rw [pdSmRefused, decide_eq_false_iff_not]
  rintro (hpsa | hcommand | hlen | ⟨hact, -⟩ | ⟨-, hinactive, hlt⟩)
  · exact hpsa (h.psa.trans hsma.symm)
  · exact hcommand (h.command.trans hsmc.symm)
  · exact hlen (h.length.trans hsml.symm)
  · exact absurd hact (by decide)
  · exact hlength hlt hinactive

/-- The SyncManagers of the ESI. -/
lemma emitEsi_sms {rx tx : List Pdo} {esi : Esi} (h : emitEsi cfg rx tx = .ok esi) :
    esi.sms = [
      { controlByte := 0x26, startAddress := cfg.syncManagers.mbxOut,
        defaultSize := some cfg.mailbox.size },
      { controlByte := 0x22, startAddress := cfg.syncManagers.mbxIn,
        defaultSize := some cfg.mailbox.size },
      { controlByte := (smControl cfg).1, startAddress := cfg.syncManagers.outputs,
        defaultSize := none },
      { controlByte := (smControl cfg).2, startAddress := cfg.syncManagers.inputs,
        defaultSize := none }] := by
  rw [emitEsi] at h
  obtain ⟨rxPdos, -, h⟩ := except_bind_eq_ok.mp h
  obtain ⟨txPdos, -, h⟩ := except_bind_eq_ok.mp h
  cases h
  rfl

lemma SameImage.bytes {objs : List Object} {table : List Objectlist} {index : Word}
    {maxMappings maxSize : ℕ} {pdos : List EsiPdo}
    (h : SameImage objs addr table index maxMappings maxSize pdos) : bytesOfEsi pdos = maxSize := by
  rw [bytesOfEsi, h.size]
  omega

/-- Mailboxes that are set up by the ESI are accepted. -/
lemma mbx_accepted (h : Generates cfg out rxBytes txBytes) (hcompiled : CompiledFrom out addr sys)
    {o : σ} {event : Dword} (hset : MbxSetUp out.esi sys.hal o event) :
    mbxAccepted sys.hal sys.opts.mb0 sys.opts.mb1 o event = true := by
  obtain ⟨sm0, sm1, size0, size1, h0, h1, hsize0, hsize1, hset0, hset1⟩ := hset
  rw [emitEsi_sms h.esi] at h0 h1
  cases h0
  cases h1
  cases hsize0
  cases hsize1
  have hoptions := h.options
  have hpos : 0 < cfg.mailbox.size := by
    have hsize := hcompiled.mbxSize
    rw [hoptions] at hsize
    have hgt := sys.opts.mbxSize_gt.1
    rw [hsize] at hgt
    exact Nat.lt_of_le_of_lt (Nat.zero_le _) hgt
  have hmb0 := hcompiled.mb0
  have hmb1 := hcompiled.mb1
  rw [hoptions] at hmb0 hmb1
  have hpass0 := hset0.mbx hpos hmb0.sma hmb0.sml hmb0.smc
  have hpass1 := hset1.mbx hpos hmb1.sma hmb1.sml hmb1.smc
  simp only [smPair] at hpass0 hpass1
  simp only [mbxAccepted, hpass0, hpass1]
  rfl

/-- Process data that is set up by the ESI is accepted. -/
lemma pd_accepted (h : Generates cfg out rxBytes txBytes) (hfits : Fits out)
    (hcompiled : CompiledFrom out addr sys) {o : σ} {event : Dword}
    (hset : PdSetUp out.esi sys.hal o event) :
    sm23Accepted sys.hal sys.opts (.ofNat 16 out.options.maxRxpdoSize)
      (.ofNat 16 out.options.maxTxpdoSize) o event = true := by
  obtain ⟨sm2, sm3, h2, h3, hset2, hset3⟩ := hset
  rw [emitEsi_sms h.esi] at h2 h3
  cases h2
  cases h3
  rw [(generated_outputs h hfits addr).bytes] at hset2
  rw [(generated_inputs h hfits addr).bytes] at hset3
  obtain ⟨hsma2, hsmc2, hact2⟩ := hcompiled.sm2
  obtain ⟨hsma3, hsmc3, hact3⟩ := hcompiled.sm3
  obtain ⟨hrxTotal, -, hsm2, hsm3⟩ := computeSm_eq_ok h.sm
  rw [h.options] at hsma2 hsmc2 hact2 hsma3 hsmc3 hact3 hset2 hset3 ⊢
  have hpass2 := hset2.pd hsma2 hsmc2 rfl
  have hpass3 := hset3.pd hsma3 hsmc3 rfl
  have hroom : sm2Overlaps sys.opts (smPair sys.hal o event 2 3).1 = false := by
    rw [sm2Overlaps, decide_eq_false_iff_not, hsma2, hsma3, hset2.length, BitVec.toNat_ofNat,
      BitVec.toNat_ofNat, BitVec.toNat_ofNat]
    change ¬ cfg.syncManagers.inputs % 2 ^ 16 <
      cfg.syncManagers.outputs % 2 ^ 16 + out.sm.rxTotal % 2 ^ 16 * 3
    omega
  have hone2 : sys.opts.sm2Act = 1 := hact2
  have hone3 : sys.opts.sm3Act = 1 := hact3
  simp only [smPair] at hpass2 hpass3 hroom
  simp only [sm23Accepted, hone2, hone3]
  simp only [emitOptions] at hpass2 hpass3 ⊢
  rw [hpass2, hroom, hpass3]
  rfl

/-- The example options with the constants of the generated ones. -/
def exampleDriveOptions : Options :=
  { exampleOptions with
    sm2Sma := .ofNat 16 exampleOutput.options.sm2Sma
    sm2Smc := .ofNat 8 exampleOutput.options.sm2Smc
    sm2Act := .ofNat 8 exampleOutput.options.sm2Act
    sm3Sma := .ofNat 16 exampleOutput.options.sm3Sma
    sm3Smc := .ofNat 8 exampleOutput.options.sm3Smc
    sm3Act := .ofNat 8 exampleOutput.options.sm3Act
    maxMappingsSm2 := exampleOutput.options.maxMappingsSm2
    maxMappingsSm3 := exampleOutput.options.maxMappingsSm3 }

/-- The example drive. -/
def exampleDriveSystem : System ByteStore :=
  { exampleSystem with
    opts := exampleDriveOptions
    dict := exampleDriveDictionary }

/-- Its SyncManagers as a master sets them up by the ESI. -/
def exampleDriveChip : ByteStore :=
  ByteStore.copy (fun _ => 0) escregSm0 32 (messageBytes
    (smRegisters 0x1000 256 0x26 0 1 ++ smRegisters 0x1100 256 0x22 0 1 ++
      smRegisters 0x1200 8 0x64 0 1 ++ smRegisters 0x1300 12 0x20 0 1)) 0

lemma exampleDrive_compiled : CompiledFrom exampleOutput exampleAddr exampleDriveSystem where
  objects := rfl
  mbxSize := by decide +kernel
  mb0 := ⟨by decide +kernel, by decide +kernel, by decide +kernel⟩
  mb1 := ⟨by decide +kernel, by decide +kernel, by decide +kernel⟩
  sm2 := ⟨rfl, rfl, rfl⟩
  sm3 := ⟨rfl, rfl, rfl⟩
  maxMappings := ⟨rfl, rfl⟩

lemma exampleOutput_bytes : bytesOfEsi exampleOutput.esi.rxPdos = 8 ∧
    bytesOfEsi exampleOutput.esi.txPdos = 12 := by
  decide +kernel

lemma exampleDrive_mbx : MbxSetUp exampleOutput.esi registerFile exampleDriveChip 0 := by
  obtain ⟨rxBytes, txBytes, hgen⟩ := generate_eq_ok exampleDrive_output
  rw [MbxSetUp, emitEsi_sms hgen.esi]
  refine ⟨_, _, _, _, rfl, rfl, rfl, rfl, ?_, ?_⟩
  · exact ⟨by decide +kernel, by decide +kernel, by decide +kernel, fun _ => by decide +kernel⟩
  · exact ⟨by decide +kernel, by decide +kernel, by decide +kernel, fun _ => by decide +kernel⟩

lemma exampleDrive_pd : PdSetUp exampleOutput.esi registerFile exampleDriveChip 0 := by
  obtain ⟨rxBytes, txBytes, hgen⟩ := generate_eq_ok exampleDrive_output
  rw [PdSetUp, emitEsi_sms hgen.esi, exampleOutput_bytes.1, exampleOutput_bytes.2]
  refine ⟨_, _, rfl, rfl, ?_, ?_⟩
  · exact ⟨by decide +kernel, by decide +kernel, by decide +kernel, fun _ => by decide +kernel⟩
  · exact ⟨by decide +kernel, by decide +kernel, by decide +kernel, fun _ => by decide +kernel⟩

end Soes.GenOd
