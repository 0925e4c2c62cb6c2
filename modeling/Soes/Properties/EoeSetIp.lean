import Soes.Properties.EoeTransport

/-!
# Setting the IP parameters

`EOE_set_ip` takes the parameters of a request one after the other, and compares their length with
that of the message only at the end.  A request is good if the parameters that its flags announce
lie within the message (`SetIpComplete`).  Then what it does depends on nothing but the message, and
if it is refused, for its port, nothing has been done.  A request that is too short is refused as
well, but by then its parameters have been stored, with bytes that an earlier message left behind:
a request is atomic exactly if it is good (`set_ip_atomic_iff`).
-/

namespace Soes

open Program

variable {σ : Type} {env : EoeEnv σ} {k : ℕ} {s : EoeMem σ}

/-! ## One parameter after the other -/

/-- Some parameter is set. -/
def EoeParam.AnySet (p : EoeParam) : Prop :=
  p.macSet ∨ p.ipSet ∨ p.subnetSet ∨ p.defaultGatewaySet ∨ p.dnsIpSet ∨ p.dnsNameSet

/-- A parameter of fixed length that a request may include. -/
structure SetField where
  flag : Byte
  size : ℕ
  set : ByteStore → ℕ → EoeParam → EoeParam
  anySet : ∀ mbx a p, (set mbx a p).AnySet
  congr : ∀ mbx mbx' a p, (∀ i < size, mbx' (a + i) = mbx (a + i)) → set mbx' a p = set mbx a p

lemma eoeIpByteToUint32_congr {mbx mbx' : ByteStore} {a : ℕ}
    (h : ∀ i < eoeIp4Length, mbx' (a + i) = mbx (a + i)) :
    eoeIpByteToUint32 mbx' a = eoeIpByteToUint32 mbx a := by
  have hzero : mbx' a = mbx a := h 0 (by decide)
  rw [eoeIpByteToUint32, eoeIpByteToUint32, hzero, h 1 (by decide), h 2 (by decide),
    h 3 (by decide)]

/-- An address that a request may include. -/
def addressField (flag : Byte) (put : Dword → EoeParam → EoeParam)
    (hput : ∀ addr p, (put addr p).AnySet) : SetField where
  flag := flag
  size := eoeIp4Length
  set mbx a := put (eoeIpByteToUint32 mbx a)
  anySet _ _ _ := hput _ _
  congr _ _ _ _ h := by rw [eoeIpByteToUint32_congr h]

/-- The MAC address. -/
def macField : SetField where
  flag := eoeParamMacInclude
  size := eoeEthaddrLength
  set mbx a p := { p with mac := p.mac.copy 0 eoeEthaddrLength mbx a, macSet := true }
  anySet _ _ _ := .inl rfl
  congr _ _ _ _ h := by rw [ByteStore.copy_congr h]

/-- The parameters of fixed length in the order in which `EOE_set_ip` takes them. -/
def setFields : List SetField :=
  [macField,
    addressField eoeParamIpInclude (fun addr p => { p with ip := addr, ipSet := true })
      fun _ _ => .inr (.inl rfl),
    addressField eoeParamSubnetIpInclude
      (fun addr p => { p with subnet := addr, subnetSet := true })
      fun _ _ => .inr (.inr (.inl rfl)),
    addressField eoeParamDefaultGatewayInclude
      (fun addr p => { p with defaultGateway := addr, defaultGatewaySet := true })
      fun _ _ => .inr (.inr (.inr (.inl rfl))),
    addressField eoeParamDnsIpInclude (fun addr p => { p with dnsIp := addr, dnsIpSet := true })
      fun _ _ => .inr (.inr (.inr (.inr (.inl rfl))))]

/-- Take the parameters that are included, given those so far and the offset reached. -/
def takeFields (mbx : ByteStore) (a : ℕ) (flags : Byte) :
    List SetField → EoeParam × ℕ → EoeParam × ℕ
  | [], x => x
  | f :: rest, x => takeFields mbx a flags rest
      (if flags &&& f.flag ≠ 0 then (f.set mbx (a + x.2) x.1, x.2 + f.size) else x)

/-- The length of the parameters that are included. -/
def fieldsLength (flags : Byte) : List SetField → ℕ
  | [] => 0
  | f :: rest => (if flags &&& f.flag ≠ 0 then f.size else 0) + fieldsLength flags rest

section fields

variable {size a : ℕ} {l : List SetField} {x : EoeParam × ℕ} {mbx mbx' : ByteStore} {flags : Byte}
  {p : EoeParam}

lemma takeFields_snd : (takeFields mbx a flags l x).2 = x.2 + fieldsLength flags l := by
  induction l generalizing x with
  | nil => rfl
  | cons f rest ih =>
      rw [takeFields, fieldsLength, ih]
      by_cases hf : flags &&& f.flag ≠ 0
      · rw [if_pos hf, if_pos hf, Nat.add_assoc]
      · rw [if_neg hf, if_neg hf, Nat.zero_add]

/-- The parameters come from the data if it is long enough. -/
lemma takeFields_congr (h : ∀ i < a + size, mbx' i = mbx i)
    (hle : x.2 + fieldsLength flags l ≤ size) :
    takeFields mbx' a flags l x = takeFields mbx a flags l x := by
  induction l generalizing x with
  | nil => rfl
  | cons f rest ih =>
      rw [fieldsLength] at hle
      rw [takeFields, takeFields]
      by_cases hf : flags &&& f.flag ≠ 0
      · rw [if_pos hf] at hle
        rw [if_pos hf, if_pos hf, f.congr mbx mbx' _ _ fun i hi => h _ (by omega)]
        apply ih
        dsimp only
        omega
      · rw [if_neg hf] at hle
        rw [if_neg hf, if_neg hf]
        apply ih
        omega

/-- What is set stays set. -/
lemma takeFields_anySet (hx : x.1.AnySet) : (takeFields mbx a flags l x).1.AnySet := by
  induction l generalizing x with
  | nil => exact hx
  | cons f rest ih =>
      rw [takeFields]
      by_cases hf : flags &&& f.flag ≠ 0
      · rw [if_pos hf]
        exact ih (f.anySet _ _ _)
      · rw [if_neg hf]
        exact ih hx

/-- What is included is set. -/
lemma takeFields_anySet_of_included {f : SetField} (hmem : f ∈ l) (hf : flags &&& f.flag ≠ 0) :
    (takeFields mbx a flags l x).1.AnySet := by
  induction l generalizing x with
  | nil => cases hmem
  | cons g rest ih =>
      rw [takeFields]
      rcases List.mem_cons.mp hmem with rfl | hrest
      · rw [if_pos hf]
        exact takeFields_anySet (f.anySet _ _ _)
      · exact ih hrest

/-- Nothing is taken of what is not included. -/
lemma takeFields_none (h : ∀ f ∈ l, flags &&& f.flag = 0) : takeFields mbx a flags l x = x := by
  induction l with
  | nil => rfl
  | cons f rest ih =>
      rw [takeFields, if_neg (not_not.mpr (h f (List.mem_cons_self ..)))]
      exact ih fun g hg => h g (List.mem_cons_of_mem _ hg)

end fields

/-! ## All parameters -/

/-- Some parameter is included. -/
def Includes (flags : Byte) : Prop := flags &&& 0x3f ≠ 0

instance (flags : Byte) : Decidable (Includes flags) := inferInstanceAs (Decidable (_ ≠ _))

/-- The length of the data that the flags announce, without the name, which may have any. -/
def paramsLength (flags : Byte) : ℕ := eoeParamOffset + fieldsLength flags setFields

section params

variable {size a : ℕ} {mbx mbx' : ByteStore} {flags : Byte} {p : EoeParam}

/-- The parameters of fixed length are taken in this order. -/
lemma takeParams_eq :
    takeParams mbx a flags p = takeFields mbx a flags setFields (p, eoeParamOffset) := by
  delta takeParams
  simp only [setFields, takeFields, macField, addressField]

/-- The name is taken last, with as many bytes as are left, and 32 at most. -/
def takeName (mbx : ByteStore) (a size : ℕ) (flags : Byte) (x : EoeParam × ℕ) : EoeParam × ℕ :=
  if flags &&& eoeParamDnsNameInclude ≠ 0 then
    ({ x.1 with
        dnsName := x.1.dnsName.copy 0 (min (sub32 size x.2) eoeDnsNameLength) mbx (a + x.2)
        dnsNameSet := true },
      x.2 + min (sub32 size x.2) eoeDnsNameLength)
  else x

/-- `EOE_set_ip` takes the parameters in this order. -/
lemma takeAllParams_eq : takeAllParams mbx a size flags p =
    takeName mbx a size flags (takeFields mbx a flags setFields (p, eoeParamOffset)) := by
  rw [takeAllParams, takeParams_eq]
  generalize takeFields mbx a flags setFields (p, eoeParamOffset) = x
  rfl

lemma takeFields_params_snd :
    (takeFields mbx a flags setFields (p, eoeParamOffset)).2 = paramsLength flags :=
  takeFields_snd

/-- A request is too short for the code if the parameters of fixed length are. -/
lemma lt_takeAllParams (hsize : size < 2 ^ 32) :
    size < (takeAllParams mbx a size flags p).2 ↔ size < paramsLength flags := by
  rw [takeAllParams_eq, takeName, takeFields_params_snd]
  by_cases hname : flags &&& eoeParamDnsNameInclude ≠ 0
  · rw [if_pos hname]
    dsimp only
    constructor
    · intro hlt
      by_contra hle
      rw [Nat.not_lt] at hle
      have hsub : sub32 size (paramsLength flags) = size - paramsLength flags := by
        rw [sub32]
        omega
      rw [hsub] at hlt
      omega
    · omega
  · rw [if_neg hname, takeFields_params_snd]

/-- A request that is long enough is read within its data. -/
lemma takeAllParams_congr (hsize : size < 2 ^ 32) (h : ∀ i < a + size, mbx' i = mbx i)
    (hle : paramsLength flags ≤ size) :
    takeAllParams mbx' a size flags p = takeAllParams mbx a size flags p := by
  have hfields : takeFields mbx' a flags setFields (p, eoeParamOffset) =
      takeFields mbx a flags setFields (p, eoeParamOffset) := takeFields_congr h (by exact hle)
  rw [takeAllParams_eq, takeAllParams_eq, hfields, takeName, takeName, takeFields_params_snd]
  by_cases hname : flags &&& eoeParamDnsNameInclude ≠ 0
  · have hsub : sub32 size (paramsLength flags) = size - paramsLength flags := by
      rw [sub32]
      omega
    rw [if_pos hname, if_pos hname, hsub, ByteStore.copy_congr fun i hi => h _ (by omega)]
  · rw [if_neg hname, if_neg hname]

/-- The flags of the parameters. -/
lemma includes_iff (flags : Byte) : Includes flags ↔
    (∃ f ∈ setFields, flags &&& f.flag ≠ 0) ∨ flags &&& eoeParamDnsNameInclude ≠ 0 := by
  have hbits : ∀ b : Byte, b &&& 0x3f ≠ 0 ↔
      (b &&& eoeParamMacInclude ≠ 0 ∨ b &&& eoeParamIpInclude ≠ 0 ∨
        b &&& eoeParamSubnetIpInclude ≠ 0 ∨ b &&& eoeParamDefaultGatewayInclude ≠ 0 ∨
        b &&& eoeParamDnsIpInclude ≠ 0) ∨ b &&& eoeParamDnsNameInclude ≠ 0 := by
    decide +kernel
  rw [Includes, hbits]
  simp only [setFields, List.mem_cons, List.not_mem_nil, or_false, exists_eq_or_imp,
    exists_eq_left, macField, addressField]

/-- What a request includes is set. -/
lemma takeAllParams_anySet (h : Includes flags) :
    (takeAllParams mbx a size flags p).1.AnySet := by
  rw [takeAllParams_eq, takeName]
  by_cases hname : flags &&& eoeParamDnsNameInclude ≠ 0
  · rw [if_pos hname]
    exact .inr (.inr (.inr (.inr (.inr rfl))))
  · rw [if_neg hname]
    rcases (includes_iff flags).mp h with ⟨f, hmem, hf⟩ | hflag
    · exact takeFields_anySet_of_included hmem hf
    · exact (hname hflag).elim

/-- A request that includes nothing sets nothing. -/
lemma takeAllParams_none (h : ¬ Includes flags) :
    takeAllParams mbx a size flags p = (p, eoeParamOffset) := by
  rw [includes_iff, not_or, not_exists] at h
  have hnone : ∀ f ∈ setFields, flags &&& f.flag = 0 := by
    intro f hf
    by_contra hne
    exact h.1 f ⟨hf, hne⟩
  rw [takeAllParams_eq, takeFields_none hnone, takeName, if_neg h.2]

end params

/-! ## A request -/

/-- The inbox holds a Set IP request, and `ESC_eoeprocess` takes it. -/
structure Mailbox.AsksSetIp (m : Mailbox) : Prop where
  run : m.mbxRun = true
  xoe : m.xoe = 0
  inclaim : m.control 0 = .inclaim
  eoe : m.mbxtype 0 = mbxeoe
  frame : escEoehsize ≤ (m.headerLength 0).toNat → m.frameinfo1 &&& eoeHdrFrameType = eoeInitReq

/-- The flags of a Set IP request. -/
def Mailbox.setIpFlags (m : Mailbox) : Byte := m.mbx eoeDataOffset

/-- The stack refuses the request itself: it has no EoE header, its port does not exist, or the
parameters that it announces do not fit its data. -/
def Mailbox.RefusesSetIp (m : Mailbox) : Prop :=
  (m.headerLength 0).toNat < escEoehsize ∨ eoeNumberOfPorts < m.eoePort ∨
    m.eoeDataSize < paramsLength m.setIpFlags

/-- The message in the inbox is this one, whatever an earlier one left behind it. -/
def Mailbox.SameMessage (m : Mailbox) (mbx : ByteStore) : Prop :=
  ∀ i < escMbxhsize + (m.headerLength 0).toNat, mbx i = m.mbx i

/-- The request is handled as a whole or not at all: what becomes of the application and the
parameters depends on the message alone, and if the stack refuses it, nothing does. -/
def SetIpAtomic (env : EoeEnv σ) (s : EoeMem σ) : Prop :=
  ∀ p, ∃ answer : σ × EoeParam, (s.mb.RefusesSetIp → answer = (s.outside, p)) ∧
    ∀ mbx, s.mb.SameMessage mbx → ∀ k,
      wp env k escEoeprocess (fun _ s' => (s'.outside, s'.eoe.nicPort) = answer)
        { s with mb := { s.mb with mbx := mbx }, eoe := { s.eoe with nicPort := p } }

/-- The request is complete: it has no EoE header, its port does not exist, or the flags lie in
its data, and so do the parameters that they announce. -/
def Mailbox.SetIpComplete (m : Mailbox) : Prop :=
  (m.headerLength 0).toNat < escEoehsize ∨ eoeNumberOfPorts < m.eoePort ∨
    0 < m.eoeDataSize ∧ (Includes m.setIpFlags → paramsLength m.setIpFlags ≤ m.eoeDataSize)

/-- What a Set IP request does to the application and the parameters. -/
def setIpAnswer (cfg : EoeCfg σ) (m : Mailbox) (o : σ) (p : EoeParam) : σ × EoeParam :=
  if (m.headerLength 0).toNat < escEoehsize ∨ eoeNumberOfPorts < m.eoePort then (o, p)
  else
    let taken := takeAllParams m.mbx Mailbox.eoeDataOffset m.eoeDataSize
      (m.mbx Mailbox.eoeDataOffset) p
    if m.eoeDataSize < taken.2 then (o, taken.1)
    else match cfg.storeEthernetSettings with
      | none => (o, taken.1)
      | some call => ((call o taken.1).1, (call o taken.1).2.1)

/-- A response leaves the application and the parameters alone. -/
lemma eoeNoDataResponse_wp {info1 result : Word} :
    wp env k (eoeNoDataResponse info1 result)
      (fun _ s' => s'.outside = s.outside ∧ s'.eoe = s.eoe) s := by
  rw [eoeNoDataResponse, wp_bind, wp_within]
  refine wp_escClaimbuffer.mono fun n m' _ => ?_
  refine .when (fun _ => ?_) fun _ => ⟨rfl, rfl⟩
  rw [wp_eoeModifyMb]
  exact ⟨rfl, rfl⟩

/-- `EOE_set_ip`. -/
lemma eoeSetIp_answers (h : ¬ (s.mb.headerLength 0).toNat < escEoehsize) :
    wp env k eoeSetIp (fun _ s' =>
      (s'.outside, s'.eoe.nicPort) = setIpAnswer env.cfg s.mb s.outside s.eoe.nicPort) s := by
  rw [eoeSetIp, wp_ask_bind, wp_get_bind, setIpAnswer]
  by_cases hport : eoeNumberOfPorts < s.mb.eoePort
  · rw [if_pos hport, if_pos (.inr hport), eoeInvalidPort]
    refine eoeNoDataResponse_wp.mono fun _ s' ⟨houtside, heoe⟩ => ?_
    rw [houtside, heoe]
  · rw [if_neg hport, if_neg (not_or.mpr ⟨h, hport⟩)]
    generalize takeAllParams s.mb.mbx Mailbox.eoeDataOffset s.mb.eoeDataSize
      (s.mb.mbx Mailbox.eoeDataOffset) s.eoe.nicPort = taken
    obtain ⟨p, off⟩ := taken
    rw [wp_bind, wp_eoeModify, wp_bind]
    by_cases hshort : s.mb.eoeDataSize < off
    · rw [if_pos hshort, if_pos hshort, wp_pure]
      refine eoeNoDataResponse_wp.mono fun _ s' ⟨houtside, heoe⟩ => ?_
      rw [houtside, heoe]
    · rw [if_neg hshort, if_neg hshort]
      cases env.cfg.storeEthernetSettings with
      | none =>
          rw [wp_pure]
          refine eoeNoDataResponse_wp.mono fun _ s' ⟨houtside, heoe⟩ => ?_
          rw [houtside, heoe]
      | some call =>
          rw [wp_transact]
          refine eoeNoDataResponse_wp.mono fun _ s' ⟨houtside, heoe⟩ => ?_
          rw [houtside, heoe]

/-- One pass answers a Set IP request. -/
lemma escEoeprocess_answers (h : s.mb.AsksSetIp) :
    wp env k escEoeprocess (fun _ s' =>
      (s'.outside, s'.eoe.nicPort) = setIpAnswer env.cfg s.mb s.outside s.eoe.nicPort) s := by
  have htaken : s.mb.xoe = 0 ∧ s.mb.control 0 = .inclaim ∧ s.mb.mbxtype 0 = mbxeoe :=
    ⟨h.xoe, h.inclaim, h.eoe⟩
  rw [escEoeprocess, wp_get_bind, when, if_pos h.run, wp_get_bind, wp_bind, when, if_pos htaken,
    wp_eoeModifyMb, wp_get_bind, when, if_pos (by exact rfl), wp_bind, eoeDispatch]
  have hend (Q : EoeMem σ → Prop) (s₁ : EoeMem σ)
      (hQ : ∀ mb, Q ⟨s₁.outside, mb, s₁.eoe⟩) :
      wp env k (eoeModifyMb fun m => { m.setControl 0 .idle with xoe := 0 })
        (fun _ s' => Q s') s₁ := (wp_eoeModifyMb _ _).mpr (hQ _)
  by_cases hlength : (s.mb.headerLength 0).toNat < escEoehsize
  · rw [if_pos (by exact hlength)]
    refine eoeNoDataResponse_wp.mono fun _ s₁ hthen => hend _ s₁ fun mb => ?_
    obtain ⟨houtside, heoe⟩ := hthen
    rw [setIpAnswer, if_pos (.inl hlength), ← houtside]
    exact congrArg (fun v : Eoe => (s₁.outside, v.nicPort)) heoe
  · have hframe := h.frame (Nat.not_lt.mp hlength)
    rw [if_neg (by exact hlength), if_neg (fun hfrag => ?_), if_pos (by exact hframe)]
    · have hset : wp env k eoeSetIp _ ⟨s.outside, { s.mb with xoe := mbxeoe }, s.eoe⟩ :=
        eoeSetIp_answers hlength
      exact hset.mono fun _ s₁ h₁ => hend _ s₁ fun mb => h₁
    · rw [show ({ s.mb with xoe := mbxeoe } : Mailbox).frameinfo1 = s.mb.frameinfo1 from rfl,
        hframe] at hfrag
      exact absurd hfrag (by decide)

/-! ## What lies behind the message -/

/-- The inbox with these bytes. -/
def Mailbox.withMbx (m : Mailbox) (mbx : ByteStore) : Mailbox := { m with mbx := mbx }

section leftover

variable {m : Mailbox} {mbx : ByteStore}

lemma word_congr {b b' : ByteStore} {a : ℕ} (h : ∀ i < 2, b' (a + i) = b (a + i)) :
    b'.word a = b.word a := by
  have hzero : b' a = b a := h 0 (by decide)
  rw [ByteStore.word, ByteStore.word, hzero, h 1 (by decide)]

/-- The mailbox header belongs to the message. -/
lemma Mailbox.SameMessage.headerLength (h : m.SameMessage mbx) :
    (m.withMbx mbx).headerLength 0 = m.headerLength 0 := by
  refine word_congr fun i hi => h _ ?_
  simp only [Mailbox.buffer, escMbxhsize]
  omega

/-- So does the EoE header, if there is one. -/
lemma Mailbox.SameMessage.frameinfo1 (h : m.SameMessage mbx)
    (hlength : escEoehsize ≤ (m.headerLength 0).toNat) :
    (m.withMbx mbx).frameinfo1 = m.frameinfo1 := by
  refine word_congr fun i hi => h _ ?_
  simp only [escMbxhsize, escEoehsize] at hlength ⊢
  omega

lemma Mailbox.SameMessage.asksSetIp (h : m.SameMessage mbx) (hasks : m.AsksSetIp) :
    (m.withMbx mbx).AsksSetIp := by
  refine ⟨hasks.run, hasks.xoe, hasks.inclaim, ?_, fun hlength => ?_⟩
  · have htype : mbx (m.buffer 0 + 5) = m.mbx (m.buffer 0 + 5) := by
      refine h _ ?_
      simp only [Mailbox.buffer, escMbxhsize]
      omega
    rw [← hasks.eoe, Mailbox.mbxtype, Mailbox.mbxtype, ← htype]
    rfl
  · rw [h.headerLength] at hlength
    rw [h.frameinfo1 hlength]
    exact hasks.frame hlength

lemma Mailbox.eoeDataSize_eq (hlength : escEoehsize ≤ (m.headerLength 0).toNat) :
    m.eoeDataSize = (m.headerLength 0).toNat - escEoehsize := by
  have hlt := (m.headerLength 0).isLt
  rw [Mailbox.eoeDataSize, sub32]
  simp only [escEoehsize] at hlength ⊢
  omega

/-- The flags belong to the message if it has data. -/
lemma Mailbox.SameMessage.setIpFlags (h : m.SameMessage mbx)
    (hlength : escEoehsize ≤ (m.headerLength 0).toNat) (hdata : 0 < m.eoeDataSize) :
    (m.withMbx mbx).setIpFlags = m.setIpFlags := by
  rw [Mailbox.eoeDataSize_eq hlength] at hdata
  refine h _ ?_
  simp only [escMbxhsize, escEoehsize, Mailbox.eoeDataOffset] at hdata ⊢
  omega

/-- The code finds a request too short if it is. -/
lemma Mailbox.tooShort_iff (m : Mailbox) {p : EoeParam} :
    m.eoeDataSize < (takeAllParams m.mbx Mailbox.eoeDataOffset m.eoeDataSize
      (m.mbx Mailbox.eoeDataOffset) p).2 ↔ m.eoeDataSize < paramsLength m.setIpFlags :=
  lt_takeAllParams (Nat.mod_lt _ (by decide))

/-- What a complete request does comes from the message. -/
lemma Mailbox.SetIpComplete.answer_eq (hcomplete : m.SetIpComplete) (h : m.SameMessage mbx)
    (cfg : EoeCfg σ) (o : σ) (p : EoeParam) :
    setIpAnswer cfg (m.withMbx mbx) o p = setIpAnswer cfg m o p := by
  have hheader := h.headerLength
  rw [setIpAnswer, setIpAnswer, hheader]
  by_cases hnone : (m.headerLength 0).toNat < escEoehsize
  · rw [if_pos (.inl hnone), if_pos (.inl hnone)]
  · have hlength := Nat.not_lt.mp hnone
    have hport : (m.withMbx mbx).eoePort = m.eoePort := by
      rw [Mailbox.eoePort, Mailbox.eoePort, h.frameinfo1 hlength]
    have hsize : (m.withMbx mbx).eoeDataSize = m.eoeDataSize := by
      rw [Mailbox.eoeDataSize, Mailbox.eoeDataSize, hheader]
    rw [hport, hsize]
    by_cases hbad : eoeNumberOfPorts < m.eoePort
    · rw [if_pos (.inr hbad), if_pos (.inr hbad)]
    · obtain ⟨hdata, hfits⟩ := (hcomplete.resolve_left hnone).resolve_left hbad
      have hflags : (m.withMbx mbx).mbx Mailbox.eoeDataOffset = m.mbx Mailbox.eoeDataOffset :=
        h.setIpFlags hlength hdata
      have htaken : takeAllParams (m.withMbx mbx).mbx Mailbox.eoeDataOffset m.eoeDataSize
          (m.mbx Mailbox.eoeDataOffset) p = takeAllParams m.mbx Mailbox.eoeDataOffset
            m.eoeDataSize (m.mbx Mailbox.eoeDataOffset) p := by
        by_cases hincludes : Includes m.setIpFlags
        · refine takeAllParams_congr (Nat.mod_lt _ (by decide)) (fun i hi => h _ ?_)
            (hfits hincludes)
          rw [Mailbox.eoeDataSize_eq hlength] at hi
          simp only [escMbxhsize, escEoehsize, Mailbox.eoeDataOffset] at hi hlength ⊢
          omega
        · exact (takeAllParams_none hincludes).trans (takeAllParams_none hincludes).symm
      rw [if_neg (not_or.mpr ⟨hnone, hbad⟩), if_neg (not_or.mpr ⟨hnone, hbad⟩), hflags, htaken]

/-- A complete request that is refused does nothing. -/
lemma Mailbox.SetIpComplete.refused (hcomplete : m.SetIpComplete) (hrefused : m.RefusesSetIp)
    (cfg : EoeCfg σ) (o : σ) (p : EoeParam) : setIpAnswer cfg m o p = (o, p) := by
  rw [setIpAnswer]
  by_cases hbad : (m.headerLength 0).toNat < escEoehsize ∨ eoeNumberOfPorts < m.eoePort
  · rw [if_pos hbad]
  · rw [not_or] at hbad
    obtain ⟨hdata, hfits⟩ := (hcomplete.resolve_left hbad.1).resolve_left hbad.2
    have hshort := (hrefused.resolve_left hbad.1).resolve_left hbad.2
    have hincludes : ¬ Includes m.setIpFlags := by
      intro hincludes
      have hle := hfits hincludes
      omega
    have htaken : takeAllParams m.mbx Mailbox.eoeDataOffset m.eoeDataSize
        (m.mbx Mailbox.eoeDataOffset) p = (p, eoeParamOffset) := takeAllParams_none hincludes
    rw [if_neg (not_or.mpr hbad), if_pos (m.tooShort_iff.mpr hshort), htaken]

/-- A request that is too short is refused, but what it includes is set. -/
lemma Mailbox.short_sets (hlength : ¬ (m.headerLength 0).toNat < escEoehsize)
    (hport : ¬ eoeNumberOfPorts < m.eoePort) (hincludes : Includes m.setIpFlags)
    (hshort : m.eoeDataSize < paramsLength m.setIpFlags) (cfg : EoeCfg σ) (o : σ) (p : EoeParam) :
    (setIpAnswer cfg m o p).2.AnySet := by
  have hanswer : setIpAnswer cfg m o p = (o, (takeAllParams m.mbx eoeDataOffset m.eoeDataSize
      (m.mbx eoeDataOffset) p).1) := by
    rw [setIpAnswer, if_neg (not_or.mpr ⟨hlength, hport⟩), if_pos (m.tooShort_iff.mpr hshort)]
  rw [hanswer]
  exact takeAllParams_anySet hincludes

/-- With an incomplete message some leftover makes a parameter set, although the request is
refused. -/
lemma Mailbox.incomplete_sets (hincomplete : ¬ m.SetIpComplete) :
    m.RefusesSetIp ∧ ∃ mbx, m.SameMessage mbx ∧
      ∀ (cfg : EoeCfg σ) o p, (setIpAnswer cfg (m.withMbx mbx) o p).2.AnySet := by
  rw [SetIpComplete, not_or, not_or] at hincomplete
  obtain ⟨hlength, hport, hdata⟩ := hincomplete
  have hle := Nat.not_lt.mp hlength
  by_cases hsome : 0 < m.eoeDataSize
  · have hshort : Includes m.setIpFlags ∧ m.eoeDataSize < paramsLength m.setIpFlags := by
      by_contra hnot
      refine hdata ⟨hsome, fun hincludes => ?_⟩
      exact Nat.not_lt.mp fun hlt => hnot ⟨hincludes, hlt⟩
    refine ⟨.inr (.inr hshort.2), m.mbx, fun _ _ => rfl, fun cfg o p => ?_⟩
    rw [show m.withMbx m.mbx = m from rfl]
    exact m.short_sets hlength hport hshort.1 hshort.2 cfg o p
  · -- without data the flags are those of an earlier message
    have hzero : m.eoeDataSize = 0 := Nat.eq_zero_of_not_pos hsome
    have hpos (flags : Byte) : 0 < paramsLength flags := Nat.add_pos_left (by decide) _
    have hsame : m.SameMessage (m.mbx.set eoeDataOffset eoeParamIpInclude) := by
      intro i hi
      rw [eoeDataSize_eq hle] at hzero
      have hne : i ≠ eoeDataOffset := by
        simp only [escMbxhsize, escEoehsize, eoeDataOffset] at hi hle hzero ⊢
        omega
      exact ByteStore.set_of_ne _ hne
    refine ⟨.inr (.inr (by rw [hzero]; exact hpos _)), _, hsame, fun cfg o p => ?_⟩
    have hheader := hsame.headerLength
    have hflags : (m.withMbx (m.mbx.set eoeDataOffset eoeParamIpInclude)).setIpFlags =
        eoeParamIpInclude :=
      ByteStore.set_self (m := m.mbx) (a := eoeDataOffset) eoeParamIpInclude
    apply Mailbox.short_sets
    · rw [hheader]
      exact hlength
    · rw [eoePort, hsame.frameinfo1 hle, ← eoePort]
      exact hport
    · rw [hflags, Includes]
      decide
    · rw [eoeDataSize, hheader, ← eoeDataSize, hzero]
      exact hpos _

end leftover

/-- None of the parameters is set. -/
def EoeParam.unset (p : EoeParam) : EoeParam :=
  { p with
    macSet := false
    ipSet := false
    subnetSet := false
    defaultGatewaySet := false
    dnsIpSet := false
    dnsNameSet := false }

lemma EoeParam.not_anySet_unset (p : EoeParam) : ¬ p.unset.AnySet := by
  simp [AnySet, unset]

/-- An incomplete request is not atomic: it is refused, and sets something. -/
lemma not_atomic_of_incomplete (h : s.mb.AsksSetIp) (hincomplete : ¬ s.mb.SetIpComplete) :
    ¬ SetIpAtomic env s := by
  intro hatomic
  obtain ⟨hrefused, mbx, hsame, hsets⟩ := s.mb.incomplete_sets (σ := σ) hincomplete
  obtain ⟨answer, hnothing, hruns⟩ := hatomic s.eoe.nicPort.unset
  have hpass : wp env 0 escEoeprocess _
      ⟨s.outside, s.mb.withMbx mbx, { s.eoe with nicPort := s.eoe.nicPort.unset }⟩ :=
    escEoeprocess_answers (hsame.asksSetIp h)
  obtain ⟨_, s', -, hanswer, hset⟩ := wp_of_wlp (hruns mbx hsame 0) hpass.wlp
  have hkept : (setIpAnswer env.cfg (s.mb.withMbx mbx) s.outside s.eoe.nicPort.unset).2 =
      s.eoe.nicPort.unset :=
    congrArg Prod.snd (hset.symm.trans (hanswer.trans (hnothing hrefused)))
  have hany := hsets env.cfg s.outside s.eoe.nicPort.unset
  rw [hkept] at hany
  exact s.eoe.nicPort.not_anySet_unset hany

/-- **A Set IP request is atomic exactly if it is complete.** -/
theorem set_ip_atomic_iff (h : s.mb.AsksSetIp) : SetIpAtomic env s ↔ s.mb.SetIpComplete := by
  constructor
  · intro hatomic
    by_contra hincomplete
    exact not_atomic_of_incomplete h hincomplete hatomic
  · intro hcomplete p
    refine ⟨setIpAnswer env.cfg s.mb s.outside p, fun hrefused => hcomplete.refused hrefused .., ?_⟩
    intro mbx hsame k
    have hpass : wp env k escEoeprocess _
        ⟨s.outside, s.mb.withMbx mbx, { s.eoe with nicPort := p }⟩ :=
      escEoeprocess_answers (hsame.asksSetIp h)
    refine hpass.mono fun _ s' hs' => hs'.trans ?_
    exact hcomplete.answer_eq hsame ..

/-! ## A request with an IP address -/

/-- A Set IP request that includes the IP address, with `size` data bytes: the address is there if
there are eight. -/
def setIpMailbox (size : ℕ) : Mailbox :=
  exampleMailbox ([.ofNat 8 (size + 4), 0, 0, 0, 0, mbxeoe, 2, 0, 0, 0] ++
    [eoeParamIpInclude, 0, 0, 0, 192, 168, 0, 1].take size)

/-- The request, in the example mailboxes. -/
def setIpMem (size : ℕ) : EoeMem (List (ℕ × List Byte)) :=
  { ethernetMem with mb := setIpMailbox size }

lemma setIpMailbox_asks {size : ℕ} (h : size = 5 ∨ size = 8) : (setIpMailbox size).AsksSetIp := by
  rcases h with rfl | rfl
  · exact ⟨rfl, rfl, rfl, by decide, fun _ => by decide⟩
  · exact ⟨rfl, rfl, rfl, by decide, fun _ => by decide⟩

/-- With its address the request is atomic. -/
theorem set_ip_atomic_example : SetIpAtomic (ethernetEnv (fun _ => 0) true) (setIpMem 8) :=
  (set_ip_atomic_iff (setIpMailbox_asks (.inr rfl))).mpr
    (.inr (.inr ⟨by decide, fun _ => by decide⟩))

/-- A request that is refused for its size has set the address, from bytes that are not its
own. -/
theorem short_set_ip_stored : ¬ SetIpAtomic (ethernetEnv (fun _ => 0) true) (setIpMem 5) := by
  refine not_atomic_of_incomplete (setIpMailbox_asks (.inl rfl)) ?_
  rintro (hlength | hport | ⟨-, hfits⟩)
  · exact absurd hlength (by decide)
  · exact absurd hport (by decide)
  · exact absurd (hfits (by decide)) (by decide)

end Soes
