import Soes.Properties.EoeSetIp
import Soes.Properties.SdoReplies

/-!
# The store of IP parameters

The IP parameters of the port are set by the application, one at a time, and by the master, several
in a request.  The application reads them one at a time, and the master reads all that are set.
`EoeSettings` is what has been set last, and a store reports it if every getter and the Get IP
response do (`Reports`).

Three things go wrong.  `EOE_ecat_set_mac` stores the address and does not note that it is set; a
name that comes in a request is stored over the name before it, whose tail stays behind a shorter
one; and `EOE_get_ip` puts together what is set, up to 68 bytes, without asking whether a mailbox
holds them.  Apart from these steps the store reports what has been set in every state that a run
reaches (`eoe_settings_iff`).

`load_eth_settings` may do what it likes: its calls of the setters are calls of the run, and the
response is about the parameters as it leaves them.
-/

namespace Soes

open Program ByteStore

variable {σ : Type} {env : EoeEnv σ} {k : ℕ}

/-! ## Addresses -/

/-- The byte order is reversed. -/
lemma eoeHtonl_append (a b c d : Byte) :
    eoeHtonl ((a ++ b) ++ (c ++ d)) = (d ++ c) ++ (b ++ a) := by
  have low : ∀ i < 32, (0x000000ff : Dword).getLsbD i = decide (i < 8) := by decide
  have second : ∀ i < 32, (0x0000ff00 : Dword).getLsbD i = decide (8 ≤ i ∧ i < 16) := by decide
  have third : ∀ i < 32, (0x00ff0000 : Dword).getLsbD i = decide (16 ≤ i ∧ i < 24) := by decide
  have high : ∀ i < 32, (0xff000000 : Dword).getLsbD i = decide (24 ≤ i ∧ i < 32) := by decide
  apply BitVec.eq_of_getLsbD_eq
  intro i hi
  simp only [eoeHtonl, BitVec.getLsbD_or, BitVec.getLsbD_and, BitVec.getLsbD_shiftLeft,
    BitVec.getLsbD_ushiftRight, BitVec.getLsbD_append, hi, decide_true, Bool.true_and]
  -- the masks are told apart by their bits alone
  generalize (0x000000ff : Dword) = m₀ at *
  generalize (0x0000ff00 : Dword) = m₁ at *
  generalize (0x00ff0000 : Dword) = m₂ at *
  generalize (0xff000000 : Dword) = m₃ at *
  have hthird := BitVec.getLsbD_of_ge m₂ (8 + i)
  have hhigh := BitVec.getLsbD_of_ge m₃ (24 + i)
  have hlow := low (i - 24)
  have hsecond := second (i - 8)
  have hthird' := third (8 + i)
  have hhigh' := high (24 + i)
  grind

/-- The octets of an address in a message. -/
def addressBytes (addr : Dword) : List Byte := (ByteStore.ofDword addr).bytes 0 eoeIp4Length

/-- Network to host and back. -/
lemma eoeHtonl_eoeHtonl (x : Dword) : eoeHtonl (eoeHtonl x) = x := by
  conv_lhs => rw [dword_bytes x]
  rw [eoeHtonl_append, eoeHtonl_append]
  exact (dword_bytes x).symm

/-- The octets of a request are those of the host's address. -/
lemma eoeHtonl_byteToUint32 (mbx : ByteStore) (a : ℕ) :
    eoeHtonl (eoeIpByteToUint32 mbx a) = mbx.dword a := by
  rw [eoeIpByteToUint32, eoeHtonl_append]
  rfl

/-- The octets of a response are those of the host's address. -/
lemma uint32ToByte_bytes (addr : Dword) :
    (eoeIpUint32ToByte addr).bytes 0 eoeIp4Length = addressBytes (eoeHtonl addr) := by
  have hbytes := dword_bytes addr
  have hswapped : eoeHtonl addr =
      (ofDword addr 0 ++ ofDword addr 1) ++ (ofDword addr 2 ++ ofDword addr 3) := by
    conv_lhs => rw [hbytes]
    exact eoeHtonl_append _ _ _ _
  obtain ⟨h0, h1, h2, h3⟩ :=
    ofDword_append (ofDword addr 3) (ofDword addr 2) (ofDword addr 1) (ofDword addr 0)
  rw [addressBytes, hswapped]
  simp only [bytes, eoeIp4Length, List.range_succ, List.range_zero, List.nil_append,
    List.map_append, List.map_cons, List.map_nil, Nat.zero_add, h0, h1, h2, h3, eoeIpUint32ToByte,
    Nat.sub_self, Nat.sub_zero, Nat.reduceSub]

/-! ## What has been set -/

/-- What has been set last; addresses in the host's byte order. -/
@[ext] structure EoeSettings where
  mac : Option (List Byte)
  ip : Option Dword
  subnet : Option Dword
  gateway : Option Dword
  dnsIp : Option Dword
  dnsName : Option (List Byte)

namespace EoeSettings

/-- Nothing has been set. -/
def unset : EoeSettings := ⟨none, none, none, none, none, none⟩

/-- The settings in the order of a message, with their flags. -/
def fields (s : EoeSettings) : List (Byte × Option (List Byte)) :=
  [(eoeParamMacInclude, s.mac), (eoeParamIpInclude, s.ip.map addressBytes),
    (eoeParamSubnetIpInclude, s.subnet.map addressBytes),
    (eoeParamDefaultGatewayInclude, s.gateway.map addressBytes),
    (eoeParamDnsIpInclude, s.dnsIp.map addressBytes), (eoeParamDnsNameInclude, s.dnsName)]

end EoeSettings

/-- The flags of the fields that are there. -/
def flagsOf : List (Byte × Option (List Byte)) → Byte
  | [] => 0
  | (flag, some _) :: rest => flag ||| flagsOf rest
  | (_, none) :: rest => flagsOf rest

/-- The data of the fields that are there. -/
def dataOf : List (Byte × Option (List Byte)) → List Byte
  | [] => []
  | (_, some data) :: rest => data ++ dataOf rest
  | (_, none) :: rest => dataOf rest

/-- A setter of the application, on port 0. -/
inductive EoeSetter where
  /-- `EOE_ecat_set_mac`. -/
  | mac (value : ByteStore)
  /-- `EOE_ecat_set_ip`. -/
  | ip (value : Dword)
  /-- `EOE_ecat_set_subnet`. -/
  | subnet (value : Dword)
  /-- `EOE_ecat_set_gateway`. -/
  | gateway (value : Dword)
  /-- `EOE_ecat_set_dns_ip`. -/
  | dnsIp (value : Dword)
  /-- `EOE_ecat_set_dns_name`. -/
  | dnsName (value : ByteStore)

/-- What a setter does. -/
def EoeSetter.run : EoeSetter → EoeParam → EoeParam
  | .mac a, p => (eoeEcatSetMac 0 a p).1
  | .ip a, p => (eoeEcatSetIp 0 a p).1
  | .subnet a, p => (eoeEcatSetSubnet 0 a p).1
  | .gateway a, p => (eoeEcatSetGateway 0 a p).1
  | .dnsIp a, p => (eoeEcatSetDnsIp 0 a p).1
  | .dnsName a, p => (eoeEcatSetDnsName 0 a p).1

/-- What a setter sets. -/
def EoeSetter.note : EoeSetter → EoeSettings → EoeSettings
  | .mac a, s => { s with mac := some (a.bytes 0 eoeEthaddrLength) }
  | .ip a, s => { s with ip := some a }
  | .subnet a, s => { s with subnet := some a }
  | .gateway a, s => { s with gateway := some a }
  | .dnsIp a, s => { s with dnsIp := some a }
  | .dnsName a, s => { s with dnsName := some (a.bytes 0 eoeDnsNameLength) }

/-! ## A request -/

/-- A parameter of fixed length in a request: its flag, its length and what it sets. -/
structure RequestField where
  flag : Byte
  size : ℕ
  note : ByteStore → ℕ → EoeSettings → EoeSettings

/-- The parameters of fixed length in the order of a request. -/
def requestFields : List RequestField :=
  [⟨eoeParamMacInclude, eoeEthaddrLength,
      fun mbx a s => { s with mac := some (mbx.bytes a eoeEthaddrLength) }⟩,
    ⟨eoeParamIpInclude, eoeIp4Length, fun mbx a s => { s with ip := some (mbx.dword a) }⟩,
    ⟨eoeParamSubnetIpInclude, eoeIp4Length, fun mbx a s => { s with subnet := some (mbx.dword a) }⟩,
    ⟨eoeParamDefaultGatewayInclude, eoeIp4Length,
      fun mbx a s => { s with gateway := some (mbx.dword a) }⟩,
    ⟨eoeParamDnsIpInclude, eoeIp4Length, fun mbx a s => { s with dnsIp := some (mbx.dword a) }⟩]

/-- What the parameters that are included set, one behind the other. -/
def noteFields (mbx : ByteStore) (a : ℕ) (flags : Byte) :
    List RequestField → EoeSettings × ℕ → EoeSettings × ℕ
  | [], x => x
  | f :: rest, x => noteFields mbx a flags rest
      (if flags &&& f.flag ≠ 0 then (f.note mbx (a + x.2) x.1, x.2 + f.size) else x)

/-- The length of the name in a request: what is left of the data, and 32 at most. -/
def Mailbox.setIpNameLength (m : Mailbox) : ℕ :=
  min (m.eoeDataSize - paramsLength m.setIpFlags) eoeDnsNameLength

/-- What a request sets: the parameters that its flags include, the name filled up with
zeros. -/
def Mailbox.noteRequest (m : Mailbox) (s : EoeSettings) : EoeSettings :=
  let x := noteFields m.mbx eoeDataOffset m.setIpFlags requestFields (s, eoeParamOffset)
  if m.setIpFlags &&& eoeParamDnsNameInclude ≠ 0 then
    { x.1 with dnsName := some (m.mbx.bytes (eoeDataOffset + x.2) m.setIpNameLength ++
        List.replicate (eoeDnsNameLength - m.setIpNameLength) 0) }
  else x.1

/-- A call that sets parameters. -/
inductive SettingCall where
  /-- One of the application. -/
  | setter (c : EoeSetter)
  /-- A Set IP request of the master. -/
  | request (m : Mailbox)

/-- What a call sets. -/
def SettingCall.note : SettingCall → EoeSettings → EoeSettings
  | .setter c, s => c.note s
  | .request m, s => m.noteRequest s

/-- What some calls, the last one first, have set. -/
def settingsOf : List SettingCall → EoeSettings
  | [] => .unset
  | c :: past => c.note (settingsOf past)

/-! ## Getters -/

/-- Every getter reports what has been set. -/
structure ShowsSettings (p : EoeParam) (s : EoeSettings) : Prop where
  mac : eoeEcatGetMac 0 p = s.mac
  ip : eoeEcatGetIp 0 p = s.ip
  subnet : eoeEcatGetSubnet 0 p = s.subnet
  gateway : eoeEcatGetGateway 0 p = s.gateway
  dnsIp : eoeEcatGetDnsIp 0 p = s.dnsIp
  dnsName : eoeEcatGetDnsName 0 p = s.dnsName

section getters

variable {p : EoeParam} {s : EoeSettings}

lemma eoeEcatGet_zero {α : Type} (set : EoeParam → Bool) (get : EoeParam → α) (p : EoeParam) :
    eoeEcatGet set get 0 p = if set p = true then some (get p) else none := by
  have hport : 0 < eoeNumberOfPorts := by decide
  rw [eoeEcatGet]
  by_cases hset : set p = true
  · rw [if_pos ⟨hport, hset⟩, if_pos hset]
  · rw [if_neg fun h => hset h.2, if_neg hset]

/-- A parameter that is set is what its getter gives. -/
lemma eoeEcatGet_set {α : Type} {set : EoeParam → Bool} {get : EoeParam → α} {a : α}
    (hset : set p = true) (hget : get p = a) : eoeEcatGet set get 0 p = some a := by
  rw [eoeEcatGet_zero, if_pos hset, hget]

/-- A setter keeps the store in step, but for that of the MAC address if none has come in a
request. -/
lemma EoeSetter.shows (h : ShowsSettings p s) (c : EoeSetter) :
    ShowsSettings (c.run p) (c.note s) ↔ ∀ a, c = .mac a → p.macSet = true := by
  cases c with
  | mac a =>
      have hbytes : (p.mac.copy 0 eoeEthaddrLength a 0).bytes 0 eoeEthaddrLength =
          a.bytes 0 eoeEthaddrLength := bytes_copy _ _ _
      constructor
      · intro hshows _ _
        by_contra hset
        have hmac : (if p.macSet = true then
            some ((p.mac.copy 0 eoeEthaddrLength a 0).bytes 0 eoeEthaddrLength) else none) =
              some (a.bytes 0 eoeEthaddrLength) := (eoeEcatGet_zero _ _ _).symm.trans hshows.mac
        rw [if_neg hset] at hmac
        cases hmac
      · intro hset
        have hmac : eoeEcatGetMac 0 (EoeSetter.run (.mac a) p) =
            some (a.bytes 0 eoeEthaddrLength) := eoeEcatGet_set (hset a rfl) hbytes
        exact ⟨hmac, h.ip, h.subnet, h.gateway, h.dnsIp, h.dnsName⟩
  | ip a =>
      have hip : eoeEcatGetIp 0 (EoeSetter.run (.ip a) p) = some a :=
        eoeEcatGet_set rfl (eoeHtonl_eoeHtonl a)
      exact ⟨(fun _ _ h => nomatch h),
        fun _ => ⟨h.mac, hip, h.subnet, h.gateway, h.dnsIp, h.dnsName⟩⟩
  | subnet a =>
      have hsubnet : eoeEcatGetSubnet 0 (EoeSetter.run (.subnet a) p) = some a :=
        eoeEcatGet_set rfl (eoeHtonl_eoeHtonl a)
      exact ⟨(fun _ _ h => nomatch h),
        fun _ => ⟨h.mac, h.ip, hsubnet, h.gateway, h.dnsIp, h.dnsName⟩⟩
  | gateway a =>
      have hgateway : eoeEcatGetGateway 0 (EoeSetter.run (.gateway a) p) = some a :=
        eoeEcatGet_set rfl (eoeHtonl_eoeHtonl a)
      exact ⟨(fun _ _ h => nomatch h),
        fun _ => ⟨h.mac, h.ip, h.subnet, hgateway, h.dnsIp, h.dnsName⟩⟩
  | dnsIp a =>
      have hdnsIp : eoeEcatGetDnsIp 0 (EoeSetter.run (.dnsIp a) p) = some a :=
        eoeEcatGet_set rfl (eoeHtonl_eoeHtonl a)
      exact ⟨(fun _ _ h => nomatch h),
        fun _ => ⟨h.mac, h.ip, h.subnet, h.gateway, hdnsIp, h.dnsName⟩⟩
  | dnsName a =>
      have hbytes : (p.dnsName.copy 0 eoeDnsNameLength a 0).bytes 0 eoeDnsNameLength =
          a.bytes 0 eoeDnsNameLength := bytes_copy _ _ _
      have hdnsName : eoeEcatGetDnsName 0 (EoeSetter.run (.dnsName a) p) =
          some (a.bytes 0 eoeDnsNameLength) := eoeEcatGet_set rfl hbytes
      exact ⟨(fun _ _ h => nomatch h),
        fun _ => ⟨h.mac, h.ip, h.subnet, h.gateway, h.dnsIp, hdnsName⟩⟩

end getters

/-! ## A request is shown -/

/-- A parameter of a request as stored and as set. -/
structure FieldMatches (f : SetField) (g : RequestField) : Prop where
  flag : f.flag = g.flag
  size : f.size = g.size
  shows : ∀ mbx a p s, ShowsSettings p s → ShowsSettings (f.set mbx a p) (g.note mbx a s)
  dnsName : ∀ mbx a p, (f.set mbx a p).dnsName = p.dnsName

/-- The code takes these parameters. -/
lemma setFields_match : List.Forall₂ FieldMatches setFields requestFields := by
  refine .cons ⟨rfl, rfl, fun mbx a p s h => ?_, fun _ _ _ => rfl⟩ <|
    .cons ⟨rfl, rfl, fun mbx a p s h => ?_, fun _ _ _ => rfl⟩ <|
    .cons ⟨rfl, rfl, fun mbx a p s h => ?_, fun _ _ _ => rfl⟩ <|
    .cons ⟨rfl, rfl, fun mbx a p s h => ?_, fun _ _ _ => rfl⟩ <|
    .cons ⟨rfl, rfl, fun mbx a p s h => ?_, fun _ _ _ => rfl⟩ .nil
  · have hbytes : (p.mac.copy 0 eoeEthaddrLength mbx a).bytes 0 eoeEthaddrLength =
        mbx.bytes a eoeEthaddrLength := bytes_copy _ _ _
    have hmac : eoeEcatGetMac 0 (macField.set mbx a p) = some (mbx.bytes a eoeEthaddrLength) :=
      eoeEcatGet_set rfl hbytes
    exact ⟨hmac, h.ip, h.subnet, h.gateway, h.dnsIp, h.dnsName⟩
  · have hip : eoeEcatGetIp 0 { p with ip := eoeIpByteToUint32 mbx a, ipSet := true } =
        some (mbx.dword a) := eoeEcatGet_set rfl (eoeHtonl_byteToUint32 mbx a)
    exact ⟨h.mac, hip, h.subnet, h.gateway, h.dnsIp, h.dnsName⟩
  · have hsubnet : eoeEcatGetSubnet 0
        { p with subnet := eoeIpByteToUint32 mbx a, subnetSet := true } = some (mbx.dword a) :=
      eoeEcatGet_set rfl (eoeHtonl_byteToUint32 mbx a)
    exact ⟨h.mac, h.ip, hsubnet, h.gateway, h.dnsIp, h.dnsName⟩
  · have hgateway : eoeEcatGetGateway 0
        { p with defaultGateway := eoeIpByteToUint32 mbx a, defaultGatewaySet := true } =
          some (mbx.dword a) := eoeEcatGet_set rfl (eoeHtonl_byteToUint32 mbx a)
    exact ⟨h.mac, h.ip, h.subnet, hgateway, h.dnsIp, h.dnsName⟩
  · have hdnsIp : eoeEcatGetDnsIp 0 { p with dnsIp := eoeIpByteToUint32 mbx a, dnsIpSet := true } =
        some (mbx.dword a) := eoeEcatGet_set rfl (eoeHtonl_byteToUint32 mbx a)
    exact ⟨h.mac, h.ip, h.subnet, h.gateway, hdnsIp, h.dnsName⟩

section request

variable {mbx : ByteStore} {a : ℕ} {flags : Byte} {p : EoeParam} {s : EoeSettings}

/-- The parameters of fixed length are shown. -/
lemma takeFields_shows {l : List SetField} {l' : List RequestField}
    (hl : List.Forall₂ FieldMatches l l') {off : ℕ} (h : ShowsSettings p s) :
    ShowsSettings (takeFields mbx a flags l (p, off)).1 (noteFields mbx a flags l' (s, off)).1 ∧
      (takeFields mbx a flags l (p, off)).2 = (noteFields mbx a flags l' (s, off)).2 ∧
        (takeFields mbx a flags l (p, off)).1.dnsName = p.dnsName := by
  induction hl generalizing p s off with
  | nil => exact ⟨h, rfl, rfl⟩
  | @cons f g rest rest' hfield _ ih =>
      rw [takeFields, noteFields, hfield.flag]
      by_cases hflag : flags &&& g.flag ≠ 0
      · rw [if_pos hflag, if_pos hflag, hfield.size]
        obtain ⟨hshows, hoff, hname⟩ := @ih (f.set mbx (a + off) p) (g.note mbx (a + off) s)
          (off + g.size) (hfield.shows mbx _ p s h)
        exact ⟨hshows, hoff, hname.trans (hfield.dnsName ..)⟩
      · rw [if_neg hflag, if_neg hflag]
        exact ih h

/-- A name is shown exactly if nothing is left of a longer one. -/
lemma shows_dnsName_iff (h : ShowsSettings p s) {n : ℕ} (hn : n ≤ eoeDnsNameLength) :
    ShowsSettings { p with dnsName := p.dnsName.copy 0 n mbx a, dnsNameSet := true }
      { s with dnsName := some (mbx.bytes a n ++ List.replicate (eoeDnsNameLength - n) 0) } ↔
    p.dnsName.bytes n (eoeDnsNameLength - n) = List.replicate (eoeDnsNameLength - n) 0 := by
  have hrest : (p.dnsName.copy 0 n mbx a).bytes n (eoeDnsNameLength - n) =
      p.dnsName.bytes n (eoeDnsNameLength - n) := bytes_copy_of_outside (.inr (by omega))
  have hbytes : (p.dnsName.copy 0 n mbx a).bytes 0 eoeDnsNameLength =
      mbx.bytes a n ++ p.dnsName.bytes n (eoeDnsNameLength - n) := by
    have hsplit := bytes_add (m := p.dnsName.copy 0 n mbx a) 0 n (eoeDnsNameLength - n)
    rw [Nat.add_sub_cancel' hn, Nat.zero_add, bytes_copy, hrest] at hsplit
    exact hsplit
  have hget : eoeEcatGetDnsName 0
      { p with dnsName := p.dnsName.copy 0 n mbx a, dnsNameSet := true } =
        some (mbx.bytes a n ++ p.dnsName.bytes n (eoeDnsNameLength - n)) :=
    eoeEcatGet_set rfl hbytes
  constructor
  · intro hshows
    exact List.append_cancel_left (Option.some.inj (hget.symm.trans hshows.dnsName))
  · intro htail
    rw [htail] at hget
    exact ⟨h.mac, h.ip, h.subnet, h.gateway, h.dnsIp, hget⟩

/-- Nothing is left of a name before it behind the name of a request. -/
def Mailbox.NameCovers (m : Mailbox) (p : EoeParam) : Prop :=
  m.setIpFlags &&& eoeParamDnsNameInclude ≠ 0 →
    p.dnsName.bytes m.setIpNameLength (eoeDnsNameLength - m.setIpNameLength) =
      List.replicate (eoeDnsNameLength - m.setIpNameLength) 0

instance (m : Mailbox) (p : EoeParam) : Decidable (m.NameCovers p) :=
  inferInstanceAs (Decidable (_ → _))

/-- What the code makes of the parameters for an accepted request. -/
def Mailbox.setIpTaken (m : Mailbox) (p : EoeParam) : EoeParam :=
  (takeAllParams m.mbx eoeDataOffset m.eoeDataSize m.setIpFlags p).1

/-- A request is shown exactly if its name covers the one before. -/
lemma request_shows {m : Mailbox} (hfits : paramsLength m.setIpFlags ≤ m.eoeDataSize)
    (h : ShowsSettings p s) :
    ShowsSettings (m.setIpTaken p) (m.noteRequest s) ↔ m.NameCovers p := by
  obtain ⟨hshows, hoff, hname⟩ := @takeFields_shows m.mbx Mailbox.eoeDataOffset m.setIpFlags _ _ _
    _ setFields_match eoeParamOffset h
  have hlength : (takeFields m.mbx Mailbox.eoeDataOffset m.setIpFlags setFields
      (p, eoeParamOffset)).2 = paramsLength m.setIpFlags := takeFields_params_snd
  rw [Mailbox.setIpTaken, takeAllParams_eq, takeName, Mailbox.noteRequest, Mailbox.NameCovers]
  generalize takeFields m.mbx Mailbox.eoeDataOffset m.setIpFlags setFields (p, eoeParamOffset) = x
    at hshows hoff hname hlength ⊢
  generalize noteFields m.mbx Mailbox.eoeDataOffset m.setIpFlags requestFields
    (s, eoeParamOffset) = y at hshows hoff ⊢
  by_cases hflag : m.setIpFlags &&& eoeParamDnsNameInclude ≠ 0
  · have hsize : m.eoeDataSize < 2 ^ 32 := Nat.mod_lt _ (by decide)
    have hsub : sub32 m.eoeDataSize x.2 = m.eoeDataSize - paramsLength m.setIpFlags := by
      rw [hlength, sub32]
      omega
    have hcount : min (sub32 m.eoeDataSize x.2) eoeDnsNameLength = m.setIpNameLength := by
      rw [hsub, Mailbox.setIpNameLength]
    have hle : m.setIpNameLength ≤ eoeDnsNameLength := Nat.min_le_right _ _
    simp only [if_pos hflag]
    rw [hcount, ← hoff, shows_dnsName_iff hshows hle, hname]
    exact ⟨fun htail _ => htail, fun hcovers => hcovers hflag⟩
  · simp only [if_neg hflag]
    exact ⟨fun _ hyes => absurd hyes hflag, fun _ => hshows⟩

end request

/-! ## The Get IP response -/

/-- A parameter of the response that is set. -/
def reported (x : Bool × Byte × ByteStore × ℕ) : Byte × Option (List Byte) :=
  (x.2.1, if x.1 = true then some (x.2.2.1.bytes 0 x.2.2.2) else none)

/-- The parameters that are set stand behind each other, with their flags and their length. -/
lemma putParams_stored {a : ℕ} {l : List (Bool × Byte × ByteStore × ℕ)} {flags : Byte} {off : ℕ}
    {mbx : ByteStore} : ∃ mbx', putParams a l flags off mbx =
      (flags ||| flagsOf (l.map reported), off + (dataOf (l.map reported)).length, mbx') ∧
        Stored mbx mbx' (a + off) (dataOf (l.map reported)) := by
  induction l generalizing flags off mbx with
  | nil =>
      refine ⟨mbx, ?_, rfl, fun _ _ => rfl⟩
      rw [putParams, List.map_nil, flagsOf, dataOf, show flags ||| 0 = flags from BitVec.or_zero]
      rfl
  | cons x rest ih =>
      obtain ⟨set, flag, bytes, size⟩ := x
      rw [putParams]
      by_cases hset : set = true
      · have hreport : reported (set, flag, bytes, size) = (flag, some (bytes.bytes 0 size)) :=
          congrArg (Prod.mk flag) (if_pos hset)
        obtain ⟨mbx', heq, hstored⟩ := @ih (flags ||| flag) (off + size)
          (mbx.copy (a + off) size bytes 0)
        have hfirst : Stored mbx (mbx.copy (a + off) size bytes 0) (a + off)
            (bytes.bytes 0 size) := by
          have hcopy : Stored mbx (mbx.copy (a + off) (bytes.bytes 0 size).length bytes 0)
              (a + off) (bytes.bytes 0 size) := stored_copy (by rw [length_bytes]) _
          rw [length_bytes] at hcopy
          exact hcopy
        refine ⟨mbx', ?_, ?_⟩
        · rw [if_pos hset, heq, List.map_cons, hreport, flagsOf, dataOf, List.length_append,
            length_bytes, BitVec.or_assoc, Nat.add_assoc]
        · rw [List.map_cons, hreport, dataOf]
          refine hfirst.append ?_
          rw [length_bytes, Nat.add_assoc]
          exact hstored
      · have hreport : reported (set, flag, bytes, size) = (flag, none) :=
          congrArg (Prod.mk flag) (if_neg hset)
        obtain ⟨mbx', heq, hstored⟩ := @ih flags off mbx
        refine ⟨mbx', ?_, ?_⟩
        · rw [if_neg hset, heq, List.map_cons, hreport, flagsOf, dataOf]
        · rw [List.map_cons, hreport, dataOf]
          exact hstored

/-- A store that shows the settings has them in its response. -/
lemma ShowsSettings.fields_eq {p : EoeParam} {s : EoeSettings} (h : ShowsSettings p s) :
    p.fields.map reported = s.fields := by
  have haddress (set : EoeParam → Bool) (get : EoeParam → Dword) {x : Option Dword}
      (hx : eoeEcatGet set (eoeHtonl <| get ·) 0 p = x) :
      (if set p = true then some ((eoeIpUint32ToByte (get p)).bytes 0 eoeIp4Length) else none) =
        x.map addressBytes := by
    rw [← hx, eoeEcatGet_zero]
    by_cases hset : set p = true
    · rw [if_pos hset, if_pos hset, Option.map_some, uint32ToByte_bytes]
    · rw [if_neg hset, if_neg hset, Option.map_none]
  have hmac : (if p.macSet = true then some (p.mac.bytes 0 eoeEthaddrLength) else none) = s.mac :=
    (eoeEcatGet_zero _ _ _).symm.trans h.mac
  have hname : (if p.dnsNameSet = true then some (p.dnsName.bytes 0 eoeDnsNameLength) else none) =
      s.dnsName := (eoeEcatGet_zero _ _ _).symm.trans h.dnsName
  simp only [EoeParam.fields, EoeSettings.fields, List.map_cons, List.map_nil, reported]
  rw [hmac, hname, haddress _ _ h.ip, haddress _ _ h.subnet, haddress _ _ h.gateway,
    haddress _ _ h.dnsIp]

/-- The length of the response with these settings, headers included: 68 bytes if all are set. -/
def EoeSettings.responseLength (s : EoeSettings) : ℕ :=
  escMbxhsize + escEoehsize + eoeParamOffset + (dataOf s.fields).length

/-- The message is a response with these settings. -/
structure IsGetIpResponse (s : EoeSettings) (message : ByteStore) : Prop where
  /-- Its length is that of the parameters that are set. -/
  length : message.word 0 =
    .ofNat 16 (escEoehsize + eoeParamOffset + (dataOf s.fields).length)
  flags : message Mailbox.eoeDataOffset = flagsOf s.fields
  data : message.bytes (Mailbox.eoeDataOffset + eoeParamOffset) (dataOf s.fields).length =
    dataOf s.fields

/-- The inbox holds a Get IP request for a port that is there, and `ESC_eoeprocess` takes it. -/
structure Mailbox.AsksGetIp (m : Mailbox) : Prop where
  run : m.mbxRun = true
  xoe : m.xoe = 0
  inclaim : m.control 0 = .inclaim
  eoe : m.mbxtype 0 = mbxeoe
  length : escEoehsize ≤ (m.headerLength 0).toNat
  frame : m.frameinfo1 &&& eoeHdrFrameType = eoeGetIpParamReq
  port : m.eoePort ≤ eoeNumberOfPorts

/-- `store_ethernet_settings` stores the parameters on the application's side, and leaves them
alone. -/
def StoreKeeps (cfg : EoeCfg σ) : Prop :=
  ∀ call, cfg.storeEthernetSettings = some call → ∀ o p, (call o p).2.1 = p

/-- The parameters as `load_eth_settings` leaves them. -/
def EoeCfg.loaded (cfg : EoeCfg σ) (o : σ) (p : EoeParam) : EoeParam :=
  match cfg.loadEthSettings with
  | none => p
  | some call => (call o p).2

/-- Every Get IP request is answered with these settings while a buffer is idle, and mailboxes
of `size` bytes hold the answer.  `p` are the parameters as `load_eth_settings` leaves them. -/
def GetIpReports (env : EoeEnv σ) (size : ℕ) (p : EoeParam) (s : EoeSettings) : Prop :=
  s.responseLength ≤ size ∧
    ∀ (mem : EoeMem σ) (k : ℕ), env.cfg.loaded mem.outside mem.eoe.nicPort = p →
      mem.mb.activembxsize = size → mem.mb.AsksGetIp → mem.mb.ReplyIdle env.opts →
        wp env k escEoeprocess (fun _ mem' =>
          ∃ n, mem.mb.HasQueued env.opts mem'.mb n ∧ IsGetIpResponse s (mem'.mb.message n)) mem

section response

variable {mem : EoeMem σ} {p : EoeParam} {s : EoeSettings}

/-- The message of the response. -/
lemma isGetIpResponse {b mbx mbx' : ByteStore} {a : ℕ}
    (hstored : Stored mbx mbx' (a + Mailbox.eoeDataOffset + eoeParamOffset) (dataOf s.fields))
    (hb : b = (mbx'.set (a + Mailbox.eoeDataOffset) (flagsOf s.fields)).setWord a
      (.ofNat 16 (escEoehsize + (eoeParamOffset + (dataOf s.fields).length)))) :
    IsGetIpResponse s (b.shift a) := by
  rw [hb, shift_setWord_start, shift_set]
  refine ⟨?_, ?_, ?_⟩
  · rw [word_setWord, Nat.add_assoc]
  · rw [setWord_of_outside _ (.inr (by decide)), set_self]
  · have hbytes := hstored.stored
    rw [Nat.add_assoc, ← bytes_shift] at hbytes
    refine Eq.trans (bytes_congr fun i _ => ?_) hbytes
    have hoff : Mailbox.eoeDataOffset = 10 := rfl
    have hparams : eoeParamOffset = 4 := rfl
    rw [setWord_of_outside _ (.inr (by omega)), set_of_ne _ (by omega)]

/-- `EOE_get_ip` answers with the settings that the store shows. -/
lemma eoeGetIp_response (h : ShowsSettings p s)
    (hp : env.cfg.loaded mem.outside mem.eoe.nicPort = p)
    (hport : mem.mb.eoePort ≤ eoeNumberOfPorts)
    (hidle : mem.mb.ReplyIdle env.opts) :
    wp env k eoeGetIp (fun _ mem' => ∃ n, mem.mb.HasQueued env.opts mem'.mb n ∧
      IsGetIpResponse s (mem'.mb.message n)) mem := by
  rw [eoeGetIp, wp_ask_bind, wp_get_bind, if_neg (Nat.not_lt.mpr hport)]
  extract_lets answer
  have hanswer (mem₁ : EoeMem σ) (hmb : mem₁.mb = mem.mb) (hp₁ : mem₁.eoe.nicPort = p) :
      wp env k (answer ()) (fun _ mem' => ∃ n, mem.mb.HasQueued env.opts mem'.mb n ∧
        IsGetIpResponse s (mem'.mb.message n)) mem₁ := by
    simp only [answer]
    rw [wp_bind, wp_within]
    refine wp_escClaimbuffer.mono fun n m' hthen => ?_
    obtain ⟨hn, hm'⟩ := hthen
    change n = scanBuffers mem₁.mb.control .idle (env.opts.mbxBuffers - 1) at hn
    change m' = if n = 0 then mem₁.mb else mem₁.mb.claim n at hm'
    rw [hmb] at hn hm'
    have hscan := (replyIdle_iff env.opts mem.mb).mp hidle
    have hfound := scanBuffers_found hscan
    have hpos := Nat.pos_of_ne_zero hscan
    rw [← hn] at hscan hfound hpos
    rw [if_neg hscan] at hm'
    rw [when, if_pos hscan, wp_get_bind, wp_eoeModifyMb]
    generalize eoePortSet mem.mb.eoePort ||| eoeGetIpParamResp ||| eoeHdrLastFragment = info1
    refine ⟨n, ⟨⟨hpos, by omega, hfound.2⟩, if_pos rfl⟩, ?_⟩
    simp only [eoeMbOf_put_mb, eoeMbOf_put_eoe, hp₁]
    generalize (m'.putEoe n 0 info1 0).setControl n .outreq = m₁
    obtain ⟨mbx', hput, hstored⟩ := @putParams_stored (m₁.buffer n + Mailbox.eoeDataOffset)
      p.fields 0 eoeParamOffset m₁.mbx
    rw [h.fields_eq] at hput hstored
    simp only [hput]
    refine isGetIpResponse hstored ?_
    rw [show (0 : Byte) ||| flagsOf s.fields = flagsOf s.fields from BitVec.zero_or]
    rfl
  rw [EoeCfg.loaded] at hp
  cases hcall : env.cfg.loadEthSettings with
  | none =>
      rw [hcall] at hp
      exact hanswer mem rfl hp
  | some call =>
      rw [hcall] at hp
      rw [wp_bind, wp_modify]
      exact hanswer _ rfl hp

/-- A Get IP request is answered with the settings that the store shows. -/
lemma ShowsSettings.getIpReports {size : ℕ} (h : ShowsSettings p s)
    (hroom : s.responseLength ≤ size) : GetIpReports env size p s := by
  refine ⟨hroom, fun mem k hp _ hasks hidle => ?_⟩
  have htaken : mem.mb.xoe = 0 ∧ mem.mb.control 0 = .inclaim ∧ mem.mb.mbxtype 0 = mbxeoe :=
    ⟨hasks.xoe, hasks.inclaim, hasks.eoe⟩
  have hframe := hasks.frame
  rw [escEoeprocess, wp_get_bind, when, if_pos hasks.run, wp_get_bind, wp_bind, when,
    if_pos htaken, wp_eoeModifyMb, wp_get_bind, when, if_pos (by exact rfl), wp_bind, eoeDispatch,
    if_neg (by exact Nat.not_lt.mpr hasks.length)]
  have hother (type : Word) (hne : eoeGetIpParamReq ≠ type) :
      ¬ ({ mem.mb with xoe := mbxeoe } : Mailbox).frameinfo1 &&& eoeHdrFrameType = type := by
    intro htype
    exact hne (hframe.symm.trans htype)
  rw [if_neg (hother _ (by decide)), if_neg (hother _ (by decide)), if_pos (by exact hframe)]
  have hget : wp env k eoeGetIp _ ⟨mem.outside, { mem.mb with xoe := mbxeoe }, mem.eoe⟩ :=
    eoeGetIp_response h hp hasks.port hidle
  refine hget.mono fun _ mem' hthen => ?_
  obtain ⟨n, hqueued, hresponse⟩ := hthen
  rw [wp_eoeModifyMb]
  refine ⟨n, ⟨hqueued.1, ?_⟩, hresponse⟩
  have hne : n ≠ 0 := Nat.pos_iff_ne_zero.mp hqueued.1.1
  exact (if_neg hne).trans hqueued.2

end response

/-! ## Runs -/

/-- The store reports the settings: the getters do, and so does the Get IP response. -/
structure Reports (env : EoeEnv σ) (size : ℕ) (p : EoeParam) (s : EoeSettings) : Prop where
  getters : ShowsSettings p s
  response : GetIpReports env size p s

/-- The calls of a run, the last one first and each with the parameters before it, and the
parameters after them.  A setter may be called by `load_eth_settings`.  Requests are those that the
stack takes and does not refuse, and that the inbox holds as a whole (`mbxReceive_fits`). -/
inductive ParamRun (env : EoeEnv σ) : List (EoeParam × SettingCall) → EoeParam → Prop
  /-- Nothing has been set. -/
  | start {p : EoeParam} (h : ¬ p.AnySet) : ParamRun env [] p
  /-- A setter is called. -/
  | setter {past : List (EoeParam × SettingCall)} {p : EoeParam} (h : ParamRun env past p)
      (c : EoeSetter) : ParamRun env ((p, .setter c) :: past) (c.run p)
  /-- `ESC_eoeprocess` takes a request. -/
  | request {past : List (EoeParam × SettingCall)} {k : ℕ} {mem mem' : EoeMem σ}
      (h : ParamRun env past mem.eoe.nicPort) (hasks : mem.mb.AsksSetIp)
      (hinside : escMbxhsize + (mem.mb.headerLength 0).toNat ≤ mem.mb.activembxsize)
      (hgood : ¬ mem.mb.RefusesSetIp) (hrun : escEoeprocess env k mem = .ok () mem') :
      ParamRun env ((mem.eoe.nicPort, .request mem.mb) :: past) mem'.eoe.nicPort

/-- The store has reported what was set, at every time of a run, with mailboxes of `size`
bytes. -/
def AllReport (env : EoeEnv σ) (size : ℕ) : List (EoeParam × SettingCall) → EoeParam → Prop
  | [], p => Reports env size p .unset
  | (q, c) :: past, p =>
      Reports env size p (settingsOf (c :: past.map Prod.snd)) ∧ AllReport env size past q

/-- A call that the store keeps up with: the address of `EOE_ecat_set_mac` is noted to be set
already, and the name of a request covers the one before. -/
def SettingCall.Kept (p : EoeParam) : SettingCall → Prop
  | .setter c => ∀ a, c = .mac a → p.macSet = true
  | .request m => m.NameCovers p

/-- The store keeps up with the calls of a run, and at every time mailboxes of `size` bytes hold
the response with what has been set. -/
def KeepsUp (size : ℕ) : List (EoeParam × SettingCall) → Prop
  | [] => EoeSettings.unset.responseLength ≤ size
  | (q, c) :: past =>
      c.Kept q ∧ (settingsOf (c :: past.map Prod.snd)).responseLength ≤ size ∧ KeepsUp size past

section runs

variable {past : List (EoeParam × SettingCall)} {p : EoeParam} {s : EoeSettings} {mem : EoeMem σ}
  {size : ℕ}

/-- The store reports what it shows, where the mailboxes hold it. -/
lemma reports_iff : Reports env size p s ↔ ShowsSettings p s ∧ s.responseLength ≤ size :=
  ⟨fun h => ⟨h.getters, h.response.1⟩, fun h => ⟨h.1, h.1.getIpReports h.2⟩⟩

/-- Nothing is shown at the start. -/
lemma shows_unset (h : ¬ p.AnySet) : ShowsSettings p .unset := by
  simp only [EoeParam.AnySet, not_or] at h
  obtain ⟨hmac, hip, hsubnet, hgateway, hdnsIp, hdnsName⟩ := h
  have hnone {α : Type} {set : EoeParam → Bool} {get : EoeParam → α} (hset : ¬ set p = true) :
      eoeEcatGet set get 0 p = none := by
    rw [eoeEcatGet_zero, if_neg hset]
  exact ⟨hnone hmac, hnone hip, hnone hsubnet, hnone hgateway, hnone hdnsIp, hnone hdnsName⟩

/-- What an accepted request makes of the parameters. -/
lemma setIpAnswer_taken (hkept : StoreKeeps env.cfg) (hgood : ¬ mem.mb.RefusesSetIp) {o : σ} :
    (setIpAnswer env.cfg mem.mb o p).2 = mem.mb.setIpTaken p := by
  rw [Mailbox.RefusesSetIp, not_or, not_or] at hgood
  obtain ⟨hlength, hport, hfits⟩ := hgood
  have hlong : ¬ mem.mb.eoeDataSize < (takeAllParams mem.mb.mbx Mailbox.eoeDataOffset
      mem.mb.eoeDataSize (mem.mb.mbx Mailbox.eoeDataOffset) p).2 :=
    fun hlt => hfits (mem.mb.tooShort_iff.mp hlt)
  rw [setIpAnswer, if_neg (not_or.mpr ⟨hlength, hport⟩), Mailbox.setIpTaken, Mailbox.setIpFlags]
  generalize takeAllParams mem.mb.mbx Mailbox.eoeDataOffset mem.mb.eoeDataSize
    (mem.mb.mbx Mailbox.eoeDataOffset) p = taken at hlong ⊢
  simp only [if_neg hlong]
  cases hcall : env.cfg.storeEthernetSettings with
  | none => rfl
  | some call => exact hkept call hcall _ _

/-- The parameters after an accepted request. -/
lemma request_nicPort {mem' : EoeMem σ} (hkept : StoreKeeps env.cfg) (hasks : mem.mb.AsksSetIp)
    (hgood : ¬ mem.mb.RefusesSetIp) (hrun : escEoeprocess env k mem = .ok () mem') :
    mem'.eoe.nicPort = mem.mb.setIpTaken mem.eoe.nicPort := by
  have hpass : wp env k escEoeprocess _ mem := escEoeprocess_answers hasks
  obtain ⟨_, mem₁, hrun₁, hanswer⟩ := hpass
  cases hrun.symm.trans hrun₁
  exact (congrArg Prod.snd hanswer).trans (setIpAnswer_taken hkept hgood)

/-- The store shows what has been set if it has reported it. -/
lemma AllReport.shows (h : AllReport env size past p) :
    ShowsSettings p (settingsOf (past.map Prod.snd)) := by
  cases past with
  | nil => exact Reports.getters h
  | cons x past => exact h.1.getters

/-- A step keeps the store up. -/
lemma allReport_cons_iff {q : EoeParam} {c : SettingCall}
    (hstep : ∀ s, ShowsSettings q s → (ShowsSettings p (c.note s) ↔ c.Kept q))
    (ih : AllReport env size past q ↔ KeepsUp size past) :
    AllReport env size ((q, c) :: past) p ↔ KeepsUp size ((q, c) :: past) := by
  rw [AllReport, KeepsUp, reports_iff]
  constructor
  · intro ⟨⟨hshows, hroom⟩, hpast⟩
    exact ⟨(hstep _ hpast.shows).mp hshows, hroom, ih.mp hpast⟩
  · intro ⟨hcall, hroom, hcalls⟩
    have hpast := ih.mpr hcalls
    exact ⟨⟨(hstep _ hpast.shows).mpr hcall, hroom⟩, hpast⟩

/-- **The store reports what has been set, at every time of a run, exactly if it keeps up with
every call** and the mailboxes hold the response. -/
theorem eoe_settings_iff (hkept : StoreKeeps env.cfg) (h : ParamRun env past p) :
    AllReport env size past p ↔ KeepsUp size past := by
  induction h with
  | start hunset =>
      rw [AllReport, KeepsUp, reports_iff]
      exact and_iff_right (shows_unset hunset)
  | setter _ c ih => exact allReport_cons_iff (fun s hs => c.shows hs) ih
  | @request past k mem mem' _ hasks _ hgood hrun ih =>
      refine allReport_cons_iff (fun s hs => ?_) ih
      rw [request_nicPort hkept hasks hgood hrun]
      rw [Mailbox.RefusesSetIp, not_or, not_or] at hgood
      exact request_shows (Nat.not_lt.mp hgood.2.2) hs

end runs

/-! ## Two runs -/

/-- A Set IP request with a name of one letter. -/
def setNameMem : EoeMem (List (ℕ × List Byte)) :=
  { ethernetMem with
    mb := exampleMailbox [9, 0, 0, 0, 0, mbxeoe, 2, 0, 0, 0, eoeParamDnsNameInclude, 0, 0, 0, 65] }

lemma ethernetCfg_kept {frame : ByteStore} {buffers : Bool} :
    StoreKeeps (ethernetCfg frame buffers) := by
  intro call hcall
  cases hcall

lemma ethernetMem_unset : ¬ ethernetMem.eoe.nicPort.AnySet := by
  rintro (h | h | h | h | h | h) <;> cases h

/-- A name is set, and then an address: both are reported, in mailboxes of 128 bytes. -/
theorem eoe_settings_example : ∃ p q,
    ParamRun (ethernetEnv (fun _ => 0) true)
      [(q, .setter (.ip 0x0100a8c0)), (ethernetMem.eoe.nicPort, .request setNameMem.mb)] p ∧
    AllReport (ethernetEnv (fun _ => 0) true) 128
      [(q, .setter (.ip 0x0100a8c0)), (ethernetMem.eoe.nicPort, .request setNameMem.mb)] p := by
  have hasks : setNameMem.mb.AsksSetIp := ⟨rfl, rfl, rfl, by decide, fun _ => by decide⟩
  have hgood : ¬ setNameMem.mb.RefusesSetIp := by
    rintro (h | h | h) <;> exact absurd h (by decide)
  have hpass : wp (ethernetEnv (fun _ => 0) true) 0 escEoeprocess _ setNameMem :=
    escEoeprocess_answers hasks
  obtain ⟨_, mem', hrun, -⟩ := hpass
  have hstart : ParamRun (ethernetEnv (fun _ => 0) true) [] setNameMem.eoe.nicPort :=
    .start ethernetMem_unset
  have hpast := (hstart.request hasks (by decide) hgood hrun).setter (.ip 0x0100a8c0)
  have hname : (SettingCall.request setNameMem.mb).Kept ethernetMem.eoe.nicPort :=
    fun _ => by decide
  have haddress : (SettingCall.setter (.ip 0x0100a8c0)).Kept mem'.eoe.nicPort := by
    intro a ha
    cases ha
  have hempty : EoeSettings.unset.responseLength ≤ 128 := by decide
  exact ⟨_, _, hpast, (eoe_settings_iff ethernetCfg_kept hpast).mpr
    ⟨haddress, by decide, hname, by decide, hempty⟩⟩

/-- An address that `EOE_ecat_set_mac` sets is not reported. -/
theorem set_mac_not_reported :
    ParamRun (ethernetEnv (fun _ => 0) true) [(ethernetMem.eoe.nicPort, .setter (.mac fun _ => 1))]
      (EoeSetter.run (.mac fun _ => 1) ethernetMem.eoe.nicPort) ∧
    ¬ AllReport (ethernetEnv (fun _ => 0) true) 128
      [(ethernetMem.eoe.nicPort, .setter (.mac fun _ => 1))]
      (EoeSetter.run (.mac fun _ => 1) ethernetMem.eoe.nicPort) := by
  have hrun : ParamRun (ethernetEnv (fun _ => 0) true) [] ethernetMem.eoe.nicPort :=
    .start ethernetMem_unset
  refine ⟨hrun.setter _, fun h => ?_⟩
  have hmac := h.1.getters.mac
  cases hmac

end Soes
