import Soes.Properties.GeneratedImage

/-!
# Process data between master and variables

A master that lays its outputs out by the generated ESI reaches the variables that the description
names, and finds its inputs where the ESI has them (`generated_exchange`).  `COE_pdoUnpack` and
`COE_pdoPack` go by the mapping that the slave made of its object list, which is the one of the
ESI; what they need beyond that is that an entry that is mapped has a variable and that no two
mapped variables overlap.  That the types are ones that they know need not be asked: the generator
has no ESI type for the others.
-/

namespace Soes.GenOd

variable {cfg : Cfg} {out : Output} {objs : List Object} {addr : Place → ℕ}
  {rxBytes txBytes : ℕ}

/-! ## Variables -/

/-- The bytes of a variable of this type. -/
def Ty.size (t : Ty) : ℕ := (t.bits + 7) / 8

/-- A type that the ESI has is one that the packing knows. -/
lemma Ty.known {t : Ty} {type : String} (h : t.esi = some type) :
    valueBytes t.dtype = some t.size ∧ t.bits ≤ 64 ∧ t.bits ≤ 8 * t.size := by
  cases t with
  | string => cases h
  | domain => cases h
  | _ => decide

/-- No two types share a data type. -/
lemma Ty.dtype_injective {t t' : Ty} (h : t.dtype = t'.dtype) : t = t' := by
  cases t <;> cases t' <;> first | rfl | exact absurd h (by decide)

/-- The place of the variable of an entry. -/
def placeOf (objs : List Object) (index sub : ℕ) : Option (Ty × Place) :=
  (entryOf objs index sub).bind fun p => (p.2.place p.1.axis).map fun place => (p.2.type, place)

/-- Two variables do not overlap. -/
def PlacesApart (addr : Place → ℕ) : Option (Ty × Place) → Option (Ty × Place) → Prop
  | some (t, p), some (t', p') => addr p + t.size ≤ addr p' ∨ addr p' + t'.size ≤ addr p
  | some _, none => True
  | none, _ => True

instance decidablePlacesApart (addr : Place → ℕ) :
    (v v' : Option (Ty × Place)) → Decidable (PlacesApart addr v v')
  | some (t, p), some (t', p') =>
      inferInstanceAs (Decidable (addr p + t.size ≤ addr p' ∨ addr p' + t'.size ≤ addr p))
  | some _, none => .isTrue trivial
  | none, _ => .isTrue trivial

/-- The mapped entries have variables of their own, which the compiler keeps apart. -/
structure OwnVariables (objs : List Object) (addr : Place → ℕ) (entries : List EsiEntry) :
    Prop where
  place : ∀ e ∈ entries, e.described.isSome = true → (placeOf objs e.index e.sub).isSome = true
  addr_ne : ∀ p, addr p ≠ 0
  apart : entries.Pairwise fun e e' =>
    PlacesApart addr (placeOf objs e.index e.sub) (placeOf objs e'.index e'.sub)

/-- Outputs reach their variables: the bits of a variable are those that the image has at its
entry, and beyond the length of the entry they are 0. -/
def Delivers (objs : List Object) (addr : Place → ℕ) (entries : List EsiEntry)
    (image mem : ByteStore) : Prop :=
  ∀ before e after t p, entries = before ++ e :: after → e.described.isSome = true →
    placeOf objs e.index e.sub = some (t, p) → ∀ i, i < 8 * t.size →
      mem.bit (8 * addr p + i) = (decide (i < e.bitLen) && image.bit (bitsOfEsi before + i))

/-- Inputs come from their variables: the bits that the image has at an entry are those of its
variable, and it keeps the bits of the padding. -/
def Collects (objs : List Object) (addr : Place → ℕ) (entries : List EsiEntry)
    (mem old image : ByteStore) : Prop :=
  ∀ before e after, entries = before ++ e :: after → ∀ i, i < e.bitLen →
    (∀ t p, e.described.isSome = true → placeOf objs e.index e.sub = some (t, p) →
      image.bit (bitsOfEsi before + i) = mem.bit (8 * addr p + i)) ∧
    (e.described = none → image.bit (bitsOfEsi before + i) = old.bit (bitsOfEsi before + i))

/-! ## The entries of the description -/

lemma entryBits_plain {index : ℕ} {spec : EntrySpec} {value : Value} {var : Option String}
    {bits : ℕ} (h : entryBits index spec value var = .ok bits) {type : String}
    (htype : spec.type.esi = some type) : bits = spec.type.bits := by
  unfold entryBits at h
  cases hty : spec.type with
  | string =>
      rw [hty] at htype
      cases htype
  | domain =>
      rw [hty] at htype
      cases htype
  | _ =>
      rw [hty] at h
      cases h
      rfl

/-- An entry of a type that the ESI has is as long as the type. -/
lemma makeSub_bits {index sub : ℕ} {spec : EntrySpec} {store disabledOnly : Bool} {s : Sub}
    (h : makeSub cfg index sub spec store disabledOnly = .ok s) {type : String}
    (htype : s.type.esi = some type) : s.bits = s.type.bits := by
  rw [makeSub] at h
  obtain ⟨value, -, h⟩ := except_bind_eq_ok.mp h
  obtain ⟨bits, hbits, h⟩ := except_bind_eq_ok.mp h
  simp only at h
  split at h
  · cases h
  · cases h
    exact entryBits_plain hbits htype

lemma buildObjects_sub (h : buildObjects cfg = .ok objs) {o : Object} (ho : o ∈ objs) {s : Sub}
    (hs : s ∈ o.subs) :
    ∃ index sub spec store disabledOnly, makeSub cfg index sub spec store disabledOnly = .ok s := by
  obtain ⟨spec, index, axis, hmake⟩ := buildObjects_mem h ho
  obtain ⟨hsubs, -, -, -⟩ := makeObject_eq_ok hmake
  rw [ObjectSpec.makeSubs] at hsubs
  cases hspecs : spec.subSpecs with
  | some specs =>
      rw [hspecs] at hsubs
      obtain ⟨sub, -, hsub⟩ := forall₂_mem_right (forall₂_of_mapM hsubs) hs
      exact ⟨_, _, _, _, _, hsub⟩
  | none =>
      rw [hspecs] at hsubs
      obtain ⟨s', hs', hlist⟩ := except_map_eq_ok.mp hsubs
      rw [← hlist, List.mem_singleton] at hs
      subst hs
      exact ⟨_, _, _, _, _, hs'⟩

/-! ## The mapping can be exchanged -/

/-- The descriptor of an entry that is mapped: its variable, its type and its length. -/
lemma slotOf_exchanged (h : buildObjects cfg = .ok objs) (haddr : ∀ p, addr p ≠ 0) {e : EsiEntry}
    (hdescribes : e.Describes (slotOf objs addr e.index e.sub)) {d : Objd}
    (hd : slotOf objs addr e.index e.sub = some d)
    (hplace : e.described.isSome = true → (placeOf objs e.index e.sub).isSome = true) :
    ∃ t p, placeOf objs e.index e.sub = some (t, p) ∧ d.data = addr p ∧ d.Exchanged t.size ∧
      d.bitlength.toNat = e.bitLen := by
  cases hdescribed : e.described with
  | none =>
      rw [EsiEntry.Describes, hdescribed] at hdescribes
      rw [show slotOf objs addr e.index e.sub = none from hdescribes] at hd
      cases hd
  | some named =>
      obtain ⟨name, type⟩ := named
      rw [EsiEntry.Describes, hdescribed] at hdescribes
      obtain ⟨d', t, hd', hlength, hdtype, hesi⟩ := hdescribes
      rw [hd] at hd'
      cases hd'
      have hsome := hplace (by rw [hdescribed]; rfl)
      rw [slotOf, Option.map_eq_some_iff] at hd
      obtain ⟨⟨o, s⟩, hentry, hslot⟩ := hd
      obtain ⟨ho, -, hs, -⟩ := entryOf_eq_some hentry
      have hty : s.type.dtype = t.dtype := by
        rw [← hdtype, ← hslot]
        rfl
      have htype : s.type = t := Ty.dtype_injective hty
      subst htype
      obtain ⟨index, sub, spec, store, disabledOnly, hsub⟩ := buildObjects_sub h ho hs
      have hbits := makeSub_bits hsub hesi
      obtain ⟨hknown, hshort, hfits⟩ := Ty.known hesi
      have hplaceOf : placeOf objs e.index e.sub =
          (s.place o.axis).map fun place => (s.type, place) := by
        rw [placeOf, hentry]
        rfl
      rw [hplaceOf, Option.isSome_map] at hsome
      obtain ⟨p, hp⟩ := Option.isSome_iff_exists.mp hsome
      have hdata : d.data = addr p := by
        rw [← hslot]
        have hrow : (o.subRow s).data = some p := by
          cases hstype : s.type with
          | string =>
              rw [hstype] at hesi
              cases hesi
          | _ =>
              simp only [Object.subRow, hstype, hp]
        simp only [Row.objd, hrow]
      have hbitlength : d.bitlength.toNat = s.type.bits := by
        rw [← hslot]
        change (BitVec.ofNat 32 s.bits).toNat = _
        rw [BitVec.toNat_ofNat, hbits]
        omega
      refine ⟨s.type, p, ?_, hdata, ?_, hlength⟩
      · rw [hplaceOf, hp]
        rfl
      · constructor
        · rw [hdata]
          exact haddr p
        · rw [hdtype]
          exact hknown
        · omega
        · omega

lemma mem_esiLayout {entries : List EsiEntry} {offset : ℕ} {m : SmMap}
    (hm : m ∈ esiLayout objs addr offset entries) : ∃ before e after,
      entries = before ++ e :: after ∧
      m = ⟨slotOf objs addr e.index e.sub, offset + bitsOfEsi before⟩ := by
  induction entries generalizing offset with
  | nil => exact absurd hm List.not_mem_nil
  | cons e entries ih =>
      rcases List.mem_cons.mp hm with rfl | hm
      · exact ⟨[], e, entries, rfl, by simp [bitsOfEsi]⟩
      · obtain ⟨before, e', after, rfl, rfl⟩ := ih hm
        exact ⟨e :: before, e', after, rfl, by simp [bitsOfEsi, Nat.add_assoc]⟩

lemma esiLayout_append (offset : ℕ) (es es' : List EsiEntry) :
    esiLayout objs addr offset (es ++ es') =
      esiLayout objs addr offset es ++ esiLayout objs addr (offset + bitsOfEsi es) es' := by
  induction es generalizing offset with
  | nil => simp [esiLayout, bitsOfEsi]
  | cons e es ih =>
      simp only [List.cons_append, esiLayout, ih]
      simp [bitsOfEsi, Nat.add_assoc]

lemma esiLayout_length (objs : List Object) (addr : Place → ℕ) (offset : ℕ)
    (entries : List EsiEntry) : (esiLayout objs addr offset entries).length = entries.length := by
  induction entries generalizing offset with
  | nil => rfl
  | cons e entries ih => rw [esiLayout, List.length_cons, List.length_cons, ih]

/-- The mapping of an entry. -/
lemma esiLayout_mem (before : List EsiEntry) (e : EsiEntry) (after : List EsiEntry) :
    (⟨slotOf objs addr e.index e.sub, bitsOfEsi before⟩ : SmMap) ∈
      esiLayout objs addr 0 (before ++ e :: after) := by
  rw [esiLayout_append, Nat.zero_add]
  exact List.mem_append_right _ List.mem_cons_self

/-- What a mapping of the layout covers lies at its entry. -/
lemma esiLayout_covers {entries : List EsiEntry} {offset p : ℕ} {m : SmMap}
    (hlength : ∀ e ∈ entries, ∀ d, slotOf objs addr e.index e.sub = some d →
      d.bitlength.toNat = e.bitLen)
    (hm : m ∈ esiLayout objs addr offset entries) (hp : m.Covers p) :
    offset ≤ p ∧ p < offset + bitsOfEsi entries := by
  obtain ⟨before, e, after, rfl, rfl⟩ := mem_esiLayout hm
  obtain ⟨d, hd, hlow, hhigh⟩ := hp
  have hbits := hlength e (by simp) d hd
  have hsum : bitsOfEsi (before ++ e :: after) =
      bitsOfEsi before + (e.bitLen + bitsOfEsi after) := by
    simp [bitsOfEsi]
  simp only at hlow hhigh
  omega

lemma esiLayout_disjoint {entries : List EsiEntry}
    (hlength : ∀ e ∈ entries, ∀ d, slotOf objs addr e.index e.sub = some d →
      d.bitlength.toNat = e.bitLen) (offset : ℕ) :
    (esiLayout objs addr offset entries).Pairwise fun m m' =>
      ∀ p, m.Covers p → ¬ m'.Covers p := by
  induction entries generalizing offset with
  | nil => exact .nil
  | cons e entries ih =>
      have hrest := ih (fun e' he' => hlength e' (List.mem_cons_of_mem _ he')) (offset + e.bitLen)
      apply List.pairwise_cons.mpr
      refine ⟨fun m hm p hp hp' => ?_, hrest⟩
      obtain ⟨d, hd, hlow, hhigh⟩ := hp
      have hbits := hlength e List.mem_cons_self d hd
      have hlater := esiLayout_covers
        (fun e' he' => hlength e' (List.mem_cons_of_mem _ he')) hm hp'
      simp only at hhigh
      omega

/-- The generated mapping can be exchanged bit by bit. -/
lemma esiLayout_exchangeable (h : buildObjects cfg = .ok objs) {entries : List EsiEntry}
    (hdescribes : ∀ e ∈ entries, e.Describes (slotOf objs addr e.index e.sub))
    (hown : OwnVariables objs addr entries) : Exchangeable (esiLayout objs addr 0 entries) := by
  have hslot : ∀ e ∈ entries, ∀ d, slotOf objs addr e.index e.sub = some d →
      ∃ t p, placeOf objs e.index e.sub = some (t, p) ∧ d.data = addr p ∧ d.Exchanged t.size ∧
        d.bitlength.toNat = e.bitLen :=
    fun e he d hd => slotOf_exchanged h hown.addr_ne (hdescribes e he) hd (hown.place e he)
  constructor
  case objects =>
    intro m hm d hd
    obtain ⟨before, e, after, rfl, rfl⟩ := mem_esiLayout hm
    obtain ⟨t, p, -, -, hex, -⟩ := hslot e (by simp) d hd
    exact ⟨t.size, hex⟩
  case apart =>
    have hpairs : ∀ (offset : ℕ) (es : List EsiEntry), (∀ e ∈ es, e ∈ entries) →
        es.Pairwise (fun e e' =>
          PlacesApart addr (placeOf objs e.index e.sub) (placeOf objs e'.index e'.sub)) →
        (esiLayout objs addr offset es).Pairwise fun m m' => ∀ d d' n n', m.obj = some d →
          m'.obj = some d' → d.Exchanged n → d'.Exchanged n' → Apart d n d' n' := by
      intro offset es hes hpair
      induction es generalizing offset with
      | nil => exact .nil
      | cons e es ih =>
          obtain ⟨hfirst, hrest⟩ := List.pairwise_cons.mp hpair
          apply List.pairwise_cons.mpr
          refine ⟨fun m hm d d' n n' hd hd' hn hn' => ?_,
            ih _ (fun e' he' => hes e' (List.mem_cons_of_mem _ he')) hrest⟩
          obtain ⟨before, e', after, rfl, rfl⟩ := mem_esiLayout hm
          obtain ⟨t, p, hp, hdata, hex, -⟩ := hslot e (hes e List.mem_cons_self) d hd
          obtain ⟨t', p', hp', hdata', hex', -⟩ := hslot e' (hes e' (by simp)) d' hd'
          have hsize : n = t.size := Option.some.inj (hn.known.symm.trans hex.known)
          have hsize' : n' = t'.size := Option.some.inj (hn'.known.symm.trans hex'.known)
          have hapart := hfirst e' (by simp)
          rw [hp, hp'] at hapart
          rw [Apart, hdata, hdata', hsize, hsize']
          exact hapart
    exact hpairs 0 entries (fun _ he => he) hown.apart
  case disjoint =>
    apply esiLayout_disjoint
    intro e he d hd
    obtain ⟨t, p, -, -, -, hlength⟩ := hslot e he d hd
    exact hlength

/-- The slot of an entry that is described, with its variable. -/
lemma described_slot (h : buildObjects cfg = .ok objs) {entries : List EsiEntry}
    (hdescribes : ∀ e ∈ entries, e.Describes (slotOf objs addr e.index e.sub))
    (hown : OwnVariables objs addr entries) {e : EsiEntry} (he : e ∈ entries)
    (hsome : e.described.isSome = true) {t : Ty} {p : Place}
    (hp : placeOf objs e.index e.sub = some (t, p)) :
    ∃ d, slotOf objs addr e.index e.sub = some d ∧ d.data = addr p ∧ d.Exchanged t.size ∧
      d.bitlength.toNat = e.bitLen := by
  obtain ⟨named, hnamed⟩ := Option.isSome_iff_exists.mp hsome
  have hdesc := hdescribes e he
  rw [EsiEntry.Describes, hnamed] at hdesc
  obtain ⟨d, -, hd, -, -, -⟩ := hdesc
  obtain ⟨t', p', hp', hdata, hex, hlength⟩ :=
    slotOf_exchanged h hown.addr_ne (hdescribes e he) hd (hown.place e he)
  rw [hp] at hp'
  cases hp'
  exact ⟨d, hd, hdata, hex, hlength⟩

/-- Unpacking delivers the outputs. -/
lemma unpack_delivers (h : buildObjects cfg = .ok objs) {entries : List EsiEntry}
    (hdescribes : ∀ e ∈ entries, e.Describes (slotOf objs addr e.index e.sub))
    (hown : OwnVariables objs addr entries) (image mem : ByteStore) :
    ∃ mem', coePdoUnpack image (esiLayout objs addr 0 entries) mem = .ok mem' ∧
      Delivers objs addr entries image mem' := by
  obtain ⟨mem', hrun, -, hvalues⟩ :=
    coePdoUnpack_values (esiLayout_exchangeable h hdescribes hown) image mem
  refine ⟨mem', hrun, ?_⟩
  intro before e after t p hentries hsome hp i hi
  have he : e ∈ entries := by
    rw [hentries]
    simp
  obtain ⟨d, hd, hdata, hex, hlength⟩ := described_slot h hdescribes hown he hsome hp
  have hmem : (⟨slotOf objs addr e.index e.sub, bitsOfEsi before⟩ : SmMap) ∈
      esiLayout objs addr 0 entries := by
    rw [hentries]
    exact esiLayout_mem before e after
  have hvalue := hvalues _ hmem d t.size hd hex
  have hi64 : i < 64 := by
    have hbytes := hex.bytes_le
    omega
  have hbit : (objValue mem' d t.size).getLsbD i =
      (coeBitsliceGet image (bitsOfEsi before) d.bitlength.toNat).getLsbD i := by rw [hvalue]
  rw [getLsbD_objValue hex hi64, getLsbD_coeBitsliceGet hex.short hi64, hdata, hlength] at hbit
  simp only [hi, decide_true, Bool.true_and] at hbit
  exact hbit

/-- Packing collects the inputs. -/
lemma pack_collects (h : buildObjects cfg = .ok objs) {entries : List EsiEntry}
    (hdescribes : ∀ e ∈ entries, e.Describes (slotOf objs addr e.index e.sub))
    (hown : OwnVariables objs addr entries) (mem old : ByteStore) :
    ∃ image, coePdoPack mem (esiLayout objs addr 0 entries) old = .ok image ∧
      Collects objs addr entries mem old image := by
  have hexchange := esiLayout_exchangeable h hdescribes hown
  obtain ⟨image, hrun, hout, hin⟩ := coePdoPack_bits hexchange mem old
  refine ⟨image, hrun, ?_⟩
  intro before e after hentries i hi
  have he : e ∈ entries := by
    rw [hentries]
    simp
  have hlength : ∀ e ∈ entries, ∀ d, slotOf objs addr e.index e.sub = some d →
      d.bitlength.toNat = e.bitLen := by
    intro e' he' d hd
    obtain ⟨t, p, -, -, -, hlength⟩ :=
      slotOf_exchanged h hown.addr_ne (hdescribes e' he') hd (hown.place e' he')
    exact hlength
  constructor
  · intro t p hsome hp
    obtain ⟨d, hd, hdata, hex, hbits⟩ := described_slot h hdescribes hown he hsome hp
    have hmem : (⟨slotOf objs addr e.index e.sub, bitsOfEsi before⟩ : SmMap) ∈
        esiLayout objs addr 0 entries := by
      rw [hentries]
      exact esiLayout_mem before e after
    have hcovers : (⟨slotOf objs addr e.index e.sub, bitsOfEsi before⟩ : SmMap).Covers
        (bitsOfEsi before + i) := ⟨d, hd, Nat.le_add_right _ _, by simp only; omega⟩
    have hvalue := hin _ hmem d t.size _ hd hex hcovers
    have hi64 : i < 64 := by
      have hshort := hex.short
      omega
    have hisize : i < 8 * t.size := by
      have hfits := hex.fits
      omega
    have hpos : bitsOfEsi before + i - bitsOfEsi before = i := by omega
    rw [hvalue]
    simp only [hpos, getLsbD_objValue hex hi64, hisize, decide_true, Bool.true_and, hdata]
  · intro hpadding
    apply hout
    intro m hm hcovers
    -- a slice before the padding ends at it, and one after it begins behind it
    rw [hentries, esiLayout_append, esiLayout, Nat.zero_add] at hm
    rcases List.mem_append.mp hm with hm | hm
    · have hbefore := esiLayout_covers (fun e' he' => hlength e' (by rw [hentries]; simp [he']))
        hm hcovers
      omega
    · rcases List.mem_cons.mp hm with rfl | hm
      · obtain ⟨d, hd, -⟩ := hcovers
        have hdesc := hdescribes e he
        rw [EsiEntry.Describes, hpadding] at hdesc
        rw [show slotOf objs addr e.index e.sub = none from hdesc] at hd
        cases hd
      · have hafter := esiLayout_covers (fun e' he' => hlength e' (by rw [hentries]; simp [he']))
          hm hcovers
        omega

/-! ## The exchange -/

/-- What `sizeOfPDO` lists for one direction, used by the packing. -/
def Exchange (out : Output) (addr : Place → ℕ) (n : ℕ) (index : Word) (maxMappings : ℕ)
    (use : List SmMap → Prop) : Prop :=
  ∀ bytes nmappings mappings, ∃ r,
    sizeOfPDO index nmappings mappings maxMappings ⟨out.table addr, bytes⟩ n () = .ok r () ∧
      use (r.mappings.take r.nmappings.toNat)

/-- **The process data goes between the master's image and the variables.**  With the mapping that
the slave makes of the generated object list, whatever image a master writes by the generated ESI
is delivered to the variables that the description names, and whatever the variables hold is
collected at the entries of the ESI. -/
theorem generated_exchange (h : generate cfg = .ok out) (hfits : Fits out)
    (hrx : OwnVariables out.objects addr (entriesOfEsi out.esi.rxPdos))
    (htx : OwnVariables out.objects addr (entriesOfEsi out.esi.txPdos)) {n : ℕ} (hn : 255 ≤ n)
    (image mem : ByteStore) :
    Exchange out addr n rxPdoObjidx out.options.maxMappingsSm2 (fun maps =>
      ∃ mem', coePdoUnpack image maps mem = .ok mem' ∧
        Delivers out.objects addr (entriesOfEsi out.esi.rxPdos) image mem') ∧
    Exchange out addr n txPdoObjidx out.options.maxMappingsSm3 (fun maps =>
      ∃ image', coePdoPack mem maps image = .ok image' ∧
        Collects out.objects addr (entriesOfEsi out.esi.txPdos) mem image image') := by
  obtain ⟨rxBytes, txBytes, hgen⟩ := generate_eq_ok h
  have houtputs := generated_outputs hgen hfits addr
  have hinputs := generated_inputs hgen hfits addr
  constructor
  · intro bytes nmappings mappings
    refine ⟨_, houtputs.run bytes nmappings mappings n hn, ?_⟩
    rw [Int.toNat_natCast, ← esiLayout_length out.objects addr 0 (entriesOfEsi out.esi.rxPdos),
      List.take_length]
    exact unpack_delivers hgen.objects houtputs.describes hrx image mem
  · intro bytes nmappings mappings
    refine ⟨_, hinputs.run bytes nmappings mappings n hn, ?_⟩
    rw [Int.toNat_natCast, ← esiLayout_length out.objects addr 0 (entriesOfEsi out.esi.txPdos),
      List.take_length]
    exact pack_collects hgen.objects hinputs.describes htx mem image

/-! ## An example -/

lemma exampleOutput_outputs : OwnVariables exampleOutput.objects exampleAddr
    (entriesOfEsi exampleOutput.esi.rxPdos) :=
  ⟨by decide +kernel, exampleAddr_ne, by decide +kernel⟩

lemma exampleOutput_inputs : OwnVariables exampleOutput.objects exampleAddr
    (entriesOfEsi exampleOutput.esi.txPdos) :=
  ⟨by decide +kernel, exampleAddr_ne, by decide +kernel⟩

/-- The example exchanges its process data, in both directions. -/
theorem generated_exchange_example :
    Exchange exampleOutput exampleAddr 255 rxPdoObjidx exampleOutput.options.maxMappingsSm2
      (fun maps => ∃ mem', coePdoUnpack (fun _ => 0x5a) maps (fun _ => 0xa5) = .ok mem' ∧
        Delivers exampleOutput.objects exampleAddr (entriesOfEsi exampleOutput.esi.rxPdos)
          (fun _ => 0x5a) mem') ∧
    Exchange exampleOutput exampleAddr 255 txPdoObjidx exampleOutput.options.maxMappingsSm3
      (fun maps => ∃ image', coePdoPack (fun _ => 0xa5) maps (fun _ => 0x5a) = .ok image' ∧
        Collects exampleOutput.objects exampleAddr (entriesOfEsi exampleOutput.esi.txPdos)
          (fun _ => 0xa5) (fun _ => 0x5a) image') :=
  generated_exchange exampleDrive_output exampleOutput_fits exampleOutput_outputs
    exampleOutput_inputs (Nat.le_refl 255) _ _

end Soes.GenOd
