import Soes.Generator.Emit
import Soes.Properties.ObjectLookup

/-!
# The generated object list

A run of the generator that succeeds has resolved every entry of every PDO in the dictionary
(`Pdo.Resolved`), and its object list is sorted by index.  The generator does not check that a
number fits the field that it is written to, and the lookups of the stack ask for more than the
generator does; what a description has to keep for that is `Fits`.  With it, `SDOobjects` is a
table as the stack asks for one, and an index and a subindex that the description has lead to the
row of their entry (`mappedEntry_generated`).
-/

namespace Soes.GenOd

variable {cfg : Cfg} {out : Output} {objs : List Object}

/-! ## Runs that succeed -/

/-- All elements of a list have gone through a step that can fail. -/
lemma forall₂_of_mapM {ε α β : Type} {f : α → Except ε β} {xs : List α} {ys : List β}
    (h : xs.mapM f = .ok ys) : List.Forall₂ (fun x y => f x = .ok y) xs ys := by
  induction xs generalizing ys with
  | nil =>
      rw [List.mapM_nil, except_pure_eq_ok] at h
      subst h
      exact .nil
  | cons x xs ih =>
      rw [List.mapM_cons] at h
      obtain ⟨y, hy, h⟩ := except_bind_eq_ok.mp h
      obtain ⟨ys', hys', h⟩ := except_bind_eq_ok.mp h
      rw [except_pure_eq_ok] at h
      subst h
      exact .cons hy (ih hys')

lemma forall₂_mem_right {α β : Type} {R : α → β → Prop} {xs : List α} {ys : List β}
    (h : List.Forall₂ R xs ys) {y : β} (hy : y ∈ ys) : ∃ x ∈ xs, R x y := by
  induction h with
  | nil => exact absurd hy List.not_mem_nil
  | cons hxy _ ih =>
      rcases List.mem_cons.mp hy with rfl | hy
      · exact ⟨_, List.mem_cons_self, hxy⟩
      · obtain ⟨x, hx, hR⟩ := ih hy
        exact ⟨x, List.mem_cons_of_mem _ hx, hR⟩

lemma forall₂_mem_left {α β : Type} {R : α → β → Prop} {xs : List α} {ys : List β}
    (h : List.Forall₂ R xs ys) {x : α} (hx : x ∈ xs) : ∃ y ∈ ys, R x y := by
  induction h with
  | nil => exact absurd hx List.not_mem_nil
  | cons hxy _ ih =>
      rcases List.mem_cons.mp hx with rfl | hx
      · exact ⟨_, List.mem_cons_self, hxy⟩
      · obtain ⟨y, hy, hR⟩ := ih hx
        exact ⟨y, List.mem_cons_of_mem _ hy, hR⟩

/-- The check for repetitions succeeds if there are none. -/
lemma checkDistinct_eq_ok {α : Type} [DecidableEq α] {die : α → Die} {seen xs : List α}
    (h : checkDistinct die seen xs = .ok ()) : xs.Nodup ∧ ∀ x ∈ xs, x ∉ seen := by
  induction xs generalizing seen with
  | nil => exact ⟨List.nodup_nil, fun x hx => absurd hx List.not_mem_nil⟩
  | cons x xs ih =>
      rw [checkDistinct] at h
      split at h
      · cases h
      case isFalse hx =>
        obtain ⟨hnodup, hnew⟩ := ih h
        constructor
        · apply List.nodup_cons.mpr
          exact ⟨fun hmem => hnew x hmem List.mem_cons_self, hnodup⟩
        · intro y hy
          rcases List.mem_cons.mp hy with rfl | hy
          · exact hx
          · exact fun hseen => hnew y hy (List.mem_cons_of_mem _ hseen)

/-- The steps of a run that succeeds. -/
structure Generates (cfg : Cfg) (out : Output) (rxBytes txBytes : ℕ) : Prop where
  objects : buildObjects cfg = .ok out.objects
  rx : buildPdos cfg out.objects cfg.rxpdo cfg.rxpdoExtra = .ok (out.rx, rxBytes)
  tx : buildPdos cfg out.objects cfg.txpdo cfg.txpdoExtra = .ok (out.tx, txBytes)
  sm : computeSm cfg rxBytes txBytes = .ok out.sm
  objectlist : emitObjectlist out.objects out.rx out.tx = .ok out.objectlist
  esi : emitEsi cfg out.rx out.tx = .ok out.esi
  options : out.options = emitOptions cfg out.rx out.tx out.sm

lemma generate_eq_ok (h : generate cfg = .ok out) : ∃ rxBytes txBytes,
    Generates cfg out rxBytes txBytes := by
  rw [generate] at h
  obtain ⟨objs, hobjs, h⟩ := except_bind_eq_ok.mp h
  obtain ⟨rx, hrx, h⟩ := except_bind_eq_ok.mp h
  obtain ⟨tx, htx, h⟩ := except_bind_eq_ok.mp h
  obtain ⟨sm, hsm, h⟩ := except_bind_eq_ok.mp h
  obtain ⟨objectlist, hlist, h⟩ := except_bind_eq_ok.mp h
  obtain ⟨esi, hesi, h⟩ := except_bind_eq_ok.mp h
  cases h
  exact ⟨rx.2, tx.2, hobjs, hrx, htx, hsm, hlist, hesi, rfl⟩

/-! ## Resolved PDOs -/

/-- The entry that an index and a subindex name in the description. -/
def entryOf (objs : List Object) (index sub : ℕ) : Option (Object × Sub) :=
  (objs.find? fun o => o.index = index).bind fun o =>
    (o.subs.find? fun s => s.sub = sub).map fun s => (o, s)

/-- An entry that is resolved is padding, or has the length and the type of an entry of the
dictionary. -/
inductive MapEntry.Resolved (objs : List Object) (e : MapEntry) : Prop where
  | padding (hindex : e.index = 0) (hsub : e.sub = 0) (htype : e.type = none)
  | entry (o : Object) (s : Sub) (h : entryOf objs e.index e.sub = some (o, s))
      (hbits : e.bits = s.bits) (htype : e.type = some s.type)

/-- A PDO that is resolved: its entries are, and they fill its bytes. -/
structure Pdo.Resolved (objs : List Object) (p : Pdo) : Prop where
  entry : ∀ e ∈ p.entries, e.Resolved objs
  bits : bitsOfEntries p.entries = 8 * p.bytes

lemma resolveEntry_resolved {axis : ℕ} {spec : PdoEntrySpec} {e : MapEntry}
    (h : resolveEntry cfg objs axis spec = .ok e) : e.Resolved objs := by
  cases spec with
  | pad bits =>
      cases h
      exact .padding rfl rfl rfl
  | object object sub name =>
      simp only [resolveEntry] at h
      split at h
      · cases h
      case h_2 o ho =>
        split at h
        · cases h
        case h_2 s hs =>
          cases h
          have hentry : entryOf objs (object + axis * cfg.stride) sub = some (o, s) := by
            rw [entryOf, ho, Option.bind_some, hs]
            rfl
          exact .entry o s hentry rfl rfl

lemma resolvePdo_resolved {axis : ℕ} {pdo : PdoSpec} {r : List MapEntry × ℕ}
    (h : resolvePdo cfg pdo objs axis = .ok r) :
    (∀ e ∈ r.1, e.Resolved objs) ∧ bitsOfEntries r.1 = 8 * r.2 := by
  rw [resolvePdo] at h
  obtain ⟨entries, hentries, h⟩ := except_bind_eq_ok.mp h
  split at h
  · cases h
  case isFalse hwhole =>
    cases h
    constructor
    · intro e he
      obtain ⟨spec, -, hspec⟩ := forall₂_mem_right (forall₂_of_mapM hentries) he
      exact resolveEntry_resolved hspec
    · change bitsOfEntries entries = 8 * (bitsOfEntries entries / 8)
      omega

/-- The PDOs of a run are resolved, and their bytes are added up. -/
lemma buildPdos_resolved {template : PdoSpec} {extras : List PdoSpec} {r : List Pdo × ℕ}
    (h : buildPdos cfg objs template extras = .ok r) :
    (∀ p ∈ r.1, p.Resolved objs) ∧ r.2 = bytesOfPdos r.1 ∧ (r.1.map Pdo.index).Nodup := by
  rw [buildPdos] at h
  obtain ⟨axes, haxes, h⟩ := except_bind_eq_ok.mp h
  obtain ⟨blocks, hblocks, h⟩ := except_bind_eq_ok.mp h
  obtain ⟨⟨⟩, hdistinct, h⟩ := except_bind_eq_ok.mp h
  cases h
  refine ⟨?_, rfl, (checkDistinct_eq_ok hdistinct).1⟩
  intro p hp
  rcases List.mem_append.mp hp with hp | hp
  · obtain ⟨n, -, hn⟩ := forall₂_mem_right (forall₂_of_mapM haxes) hp
    rw [axisPdo] at hn
    obtain ⟨r, hr, hn⟩ := except_bind_eq_ok.mp hn
    cases hn
    exact ⟨(resolvePdo_resolved hr).1, (resolvePdo_resolved hr).2⟩
  · obtain ⟨extra, -, hextra⟩ := forall₂_mem_right (forall₂_of_mapM hblocks) hp
    rw [extraPdo] at hextra
    obtain ⟨r, hr, hextra⟩ := except_bind_eq_ok.mp hextra
    cases hextra
    exact ⟨(resolvePdo_resolved hr).1, (resolvePdo_resolved hr).2⟩

lemma bitsOfEntries_append (es es' : List MapEntry) :
    bitsOfEntries (es ++ es') = bitsOfEntries es + bitsOfEntries es' := by
  simp [bitsOfEntries]

/-- The entries of resolved PDOs fill their bytes. -/
lemma bitsOfEntries_pdos {pdos : List Pdo} (h : ∀ p ∈ pdos, p.Resolved objs) :
    bitsOfEntries (entriesOfPdos pdos) = 8 * bytesOfPdos pdos := by
  induction pdos with
  | nil => rfl
  | cons p pdos ih =>
      have hrest := ih fun p hp => h p (List.mem_cons_of_mem _ hp)
      have hfirst := (h p List.mem_cons_self).bits
      have hbytes : bytesOfPdos (p :: pdos) = p.bytes + bytesOfPdos pdos := by simp [bytesOfPdos]
      rw [entriesOfPdos, List.flatMap_cons, bitsOfEntries_append, ← entriesOfPdos, hrest, hfirst,
        hbytes]
      omega

/-! ## The object list -/

/-- `SDOobjects` before the sentinel, as the compiler lays it down. -/
def Output.rows (out : Output) (addr : Place → ℕ) : List Objectlist :=
  out.objectlist.map (ObjectRow.objectlist addr)

/-- `SDOobjects`. -/
def Output.table (out : Output) (addr : Place → ℕ) : List Objectlist :=
  out.rows addr ++ [sentinel]

/-- What a row of the object list is there for. -/
inductive ObjectRow.IsFor (objs : List Object) (rx tx : List Pdo) (r : ObjectRow) : Prop where
  /-- An object. -/
  | object (o : Object) (ho : o ∈ objs) (hr : objectRow o = .ok r)
  /-- A PDO. -/
  | pdo (p : Pdo) (hp : p ∈ rx ++ tx) (hr : r = pdoRow p)
  /-- Object 0x1C00. -/
  | smType (hr : r = smTypeRow)
  /-- Object 0x1C12. -/
  | rxAssign (hr : r = assignRow 0x1C12 "RxPDO Assignment" rx)
  /-- Object 0x1C13. -/
  | txAssign (hr : r = assignRow 0x1C13 "TxPDO Assignment" tx)

/-- The rows of the object list: they are sorted, and there is one for each object, each PDO
and each assignment object, and no others. -/
structure Tabulates (objs : List Object) (rx tx : List Pdo) (rows : List ObjectRow) : Prop where
  sorted : rows.Pairwise fun r r' => r.index ≤ r'.index
  object : ∀ o ∈ objs, ∃ r ∈ rows, objectRow o = .ok r
  pdo : ∀ p ∈ rx ++ tx, pdoRow p ∈ rows
  smType : smTypeRow ∈ rows
  rxAssign : assignRow 0x1C12 "RxPDO Assignment" rx ∈ rows
  txAssign : assignRow 0x1C13 "TxPDO Assignment" tx ∈ rows
  isFor : ∀ r ∈ rows, r.IsFor objs rx tx

lemma sorted_by_index (rows : List ObjectRow) :
    (rows.insertionSort fun a b => a.index ≤ b.index).Pairwise fun r r' => r.index ≤ r'.index :=
  have _ : Std.Total fun a b : ObjectRow => a.index ≤ b.index := ⟨fun _ _ => Nat.le_total _ _⟩
  have _ : IsTrans ObjectRow fun a b => a.index ≤ b.index := ⟨fun _ _ _ => Nat.le_trans⟩
  List.pairwise_insertionSort _ _

lemma emitObjectlist_tabulates {rx tx : List Pdo} {rows : List ObjectRow}
    (h : emitObjectlist objs rx tx = .ok rows) : Tabulates objs rx tx rows := by
  rw [emitObjectlist] at h
  obtain ⟨objectRows, hrows, h⟩ := except_bind_eq_ok.mp h
  cases h
  have hperm := List.perm_insertionSort (fun a b : ObjectRow => a.index ≤ b.index)
    (objectRows ++ (rx ++ tx).map pdoRow ++
      [smTypeRow, assignRow 0x1C12 "RxPDO Assignment" rx, assignRow 0x1C13 "TxPDO Assignment" tx])
  constructor
  case sorted => exact sorted_by_index _
  case object =>
    intro o ho
    obtain ⟨r, hr, hrow⟩ := forall₂_mem_left (forall₂_of_mapM hrows) ho
    refine ⟨r, hperm.mem_iff.mpr ?_, hrow⟩
    rw [List.append_assoc]
    exact List.mem_append_left _ hr
  case pdo =>
    intro p hp
    apply hperm.mem_iff.mpr
    apply List.mem_append_left
    exact List.mem_append_right _ (List.mem_map_of_mem hp)
  case smType =>
    apply hperm.mem_iff.mpr
    apply List.mem_append_right
    simp
  case rxAssign =>
    apply hperm.mem_iff.mpr
    apply List.mem_append_right
    simp
  case txAssign =>
    apply hperm.mem_iff.mpr
    apply List.mem_append_right
    simp
  case isFor =>
    intro r hr
    rcases List.mem_append.mp (hperm.mem_iff.mp hr) with hr | hr
    · rcases List.mem_append.mp hr with hr | hr
      · obtain ⟨o, ho, hrow⟩ := forall₂_mem_right (forall₂_of_mapM hrows) hr
        exact .object o ho hrow
      · obtain ⟨p, hp, rfl⟩ := List.mem_map.mp hr
        exact .pdo p hp rfl
    · simp only [List.mem_cons, List.not_mem_nil, or_false] at hr
      rcases hr with hr | hr | hr
      · exact .smType hr
      · exact .rxAssign hr
      · exact .txAssign hr

/-! ## Descriptions that fit -/

/-- The sub-entries are numbered from 1 on, and a byte holds the last number. -/
structure Object.Numbered (o : Object) : Prop where
  subs : o.listed.map Sub.sub = List.range' 1 o.listed.length
  length_le : o.listed.length ≤ 255

/-- What the generator takes for granted.  A number fits the field it is written to, index 0
is that of padding and `0xFFFF` that of the sentinel, no index comes twice among the objects, the
PDOs and the objects of the stack, a count is one that the loops of `sizeOfPDO` get past, and a
sub-entry that is mapped is not the count of an object, whose sub-entries are numbered. -/
structure Fits (out : Output) : Prop where
  distinct : (out.objectlist.map ObjectRow.index).Nodup
  index_lt : ∀ r ∈ out.objectlist, r.index < 0xFFFF
  index_pos : ∀ o ∈ out.objects, 0 < o.index
  pdos : out.rx.length ≤ 254 ∧ out.tx.length ≤ 254
  entries : ∀ p ∈ out.rx ++ out.tx, p.entries.length ≤ 254
  entry : ∀ p ∈ out.rx ++ out.tx, ∀ e ∈ p.entries, e.sub ≤ 255 ∧ e.bits ≤ 255
  mapped : ∀ p ∈ out.rx ++ out.tx, ∀ e ∈ p.entries, ∀ o ∈ out.objects, o.index = e.index →
    o.isRecord = true → o.Numbered ∧ e.sub ≠ 0

instance decidableNumbered (o : Object) : Decidable o.Numbered :=
  decidable_of_iff (o.listed.map Sub.sub = List.range' 1 o.listed.length ∧ o.listed.length ≤ 255)
    ⟨fun h => ⟨h.1, h.2⟩, fun h => ⟨h.subs, h.length_le⟩⟩

instance decidableFits (out : Output) : Decidable (Fits out) :=
  decidable_of_iff
    ((out.objectlist.map ObjectRow.index).Nodup ∧ (∀ r ∈ out.objectlist, r.index < 0xFFFF) ∧
      (∀ o ∈ out.objects, 0 < o.index) ∧ (out.rx.length ≤ 254 ∧ out.tx.length ≤ 254) ∧
      (∀ p ∈ out.rx ++ out.tx, p.entries.length ≤ 254) ∧
      (∀ p ∈ out.rx ++ out.tx, ∀ e ∈ p.entries, e.sub ≤ 255 ∧ e.bits ≤ 255) ∧
      ∀ p ∈ out.rx ++ out.tx, ∀ e ∈ p.entries, ∀ o ∈ out.objects, o.index = e.index →
        o.isRecord = true → o.Numbered ∧ e.sub ≠ 0)
    ⟨fun h => ⟨h.1, h.2.1, h.2.2.1, h.2.2.2.1, h.2.2.2.2.1, h.2.2.2.2.2.1, h.2.2.2.2.2.2⟩,
      fun h => ⟨h.distinct, h.index_lt, h.index_pos, h.pdos, h.entries, h.entry, h.mapped⟩⟩

/-! ## Lookups in the object list -/

section lookups

variable (addr : Place → ℕ) {rxBytes txBytes : ℕ}

/-- The object list ascends. -/
lemma rows_ascending (h : Generates cfg out rxBytes txBytes) (hfits : Fits out) :
    (out.rows addr).Pairwise fun o o' => o.index < o'.index := by
  rw [Output.rows, List.pairwise_map]
  have hsorted := (emitObjectlist_tabulates h.objectlist).sorted
  have hdistinct := List.pairwise_map.mp hfits.distinct
  apply (hsorted.and hdistinct).imp_of_mem
  rintro r r' hr hr' ⟨hle, hne⟩
  have hlt := hfits.index_lt r hr
  have hlt' := hfits.index_lt r' hr'
  change (BitVec.ofNat 16 r.index) < BitVec.ofNat 16 r'.index
  rw [BitVec.lt_def, BitVec.toNat_ofNat, BitVec.toNat_ofNat]
  omega

lemma rows_below (hfits : Fits out) : ∀ o ∈ out.rows addr, o.index < 0xFFFF := by
  intro o ho
  obtain ⟨r, hr, rfl⟩ := List.mem_map.mp ho
  have hlt := hfits.index_lt r hr
  change (BitVec.ofNat 16 r.index) < 0xFFFF
  rw [BitVec.lt_def, BitVec.toNat_ofNat]
  change _ < 65535
  omega

/-- No two rows of an ascending table have the same index. -/
lemma ascending_unique {rows : List Objectlist}
    (h : rows.Pairwise fun o o' => o.index < o'.index) {o o' : Objectlist} (ho : o ∈ rows)
    (ho' : o' ∈ rows) (hindex : o.index = o'.index) : o = o' := by
  obtain ⟨i, hi, rfl⟩ := List.mem_iff_getElem.mp ho
  obtain ⟨j, hj, rfl⟩ := List.mem_iff_getElem.mp ho'
  have hpairs := List.pairwise_iff_getElem.mp h
  rcases Nat.lt_trichotomy i j with hlt | rfl | hlt
  · have hless := hpairs i j hi hj hlt
    rw [hindex] at hless
    exact absurd hless (BitVec.lt_irrefl _)
  · rfl
  · have hless := hpairs j i hj hi hlt
    rw [hindex] at hless
    exact absurd hless (BitVec.lt_irrefl _)

/-- The row of an index is found. -/
lemma row_found (h : Generates cfg out rxBytes txBytes) (hfits : Fits out) {r : ObjectRow}
    (hr : r ∈ out.objectlist) :
    Finds (out.table addr) (.ofNat 16 r.index) (r.objectlist addr) := by
  have hascending := rows_ascending addr h hfits
  have hmem : r.objectlist addr ∈ out.rows addr := List.mem_map_of_mem hr
  have hbelow := rows_below addr hfits
  have hne : (r.objectlist addr).index ≠ 0xFFFF := by
    intro heq
    have hlt := hbelow _ hmem
    rw [heq] at hlt
    exact absurd hlt (by decide)
  rcases (findsExactly_iff hascending hbelow (r.objectlist addr).index).mpr hne with
    ⟨n, o, hn, hindex, hfound⟩ | ⟨hnone, -⟩
  · have hsame : o = r.objectlist addr :=
      ascending_unique hascending (List.mem_of_getElem? hn) hmem hindex
    refine ⟨n, hfound, ?_⟩
    rw [objectAt_eq_ok, Output.table, List.getElem?_append_left (List.getElem?_eq_some_iff.mp hn).1,
      hn, hsame]
  · exact absurd rfl (hnone _ hmem)

/-! ## Lookups of entries -/

lemma buildObjects_mem (h : buildObjects cfg = .ok objs) {o : Object} (ho : o ∈ objs) :
    ∃ spec index axis, makeObject cfg spec index axis = .ok o := by
  rw [buildObjects] at h
  obtain ⟨lists, hlists, h⟩ := except_bind_eq_ok.mp h
  obtain ⟨⟨⟩, -, h⟩ := except_bind_eq_ok.mp h
  cases h
  have hflat := (List.perm_insertionSort _ _).mem_iff.mp ho
  obtain ⟨list, hlist, hmem⟩ := List.mem_flatten.mp hflat
  obtain ⟨spec, -, hspec⟩ := forall₂_mem_right (forall₂_of_mapM hlists) hlist
  rw [expandObject] at hspec
  split at hspec
  · obtain ⟨n, -, hn⟩ := forall₂_mem_right (forall₂_of_mapM hspec) hmem
    exact ⟨spec, _, _, hn⟩
  · obtain ⟨o', ho', rfl⟩ := except_map_eq_ok.mp hspec
    rw [List.mem_singleton] at hmem
    subst hmem
    exact ⟨spec, _, _, ho'⟩

lemma makeSub_sub {index sub : ℕ} {spec : EntrySpec} {store disabledOnly : Bool} {s : Sub}
    (h : makeSub cfg index sub spec store disabledOnly = .ok s) : s.sub = sub := by
  rw [makeSub] at h
  obtain ⟨value, -, h⟩ := except_bind_eq_ok.mp h
  obtain ⟨bits, -, h⟩ := except_bind_eq_ok.mp h
  simp only at h
  split at h
  · cases h
  · cases h
    rfl

lemma makeObject_eq_ok {spec : ObjectSpec} {index : ℕ} {axis : Option ℕ} {o : Object}
    (h : makeObject cfg spec index axis = .ok o) :
    spec.makeSubs cfg index = .ok o.subs ∧ o.isRecord = spec.subSpecs.isSome ∧
      o.index = index ∧ o.axis = axis := by
  rw [makeObject] at h
  generalize spec.objectCode.getD _ = code at h
  by_cases hcode : (code = .var) ≠ (spec.subSpecs.isSome = false)
  · rw [if_pos hcode] at h
    cases h
  · rw [if_neg hcode] at h
    obtain ⟨subs, hsubs, h⟩ := except_bind_eq_ok.mp h
    cases h
    exact ⟨hsubs, rfl, rfl, rfl⟩

/-- An object without sub-entries is one entry, of subindex 0. -/
lemma buildObjects_plain (h : buildObjects cfg = .ok objs) {o : Object} (ho : o ∈ objs)
    (hplain : o.isRecord = false) : ∃ s, o.subs = [s] ∧ s.sub = 0 := by
  obtain ⟨spec, index, axis, hmake⟩ := buildObjects_mem h ho
  obtain ⟨hsubs, hrecord, -, -⟩ := makeObject_eq_ok hmake
  rw [ObjectSpec.makeSubs] at hsubs
  cases hspecs : spec.subSpecs with
  | some specs =>
      rw [hrecord, hspecs] at hplain
      cases hplain
  | none =>
      rw [hspecs] at hsubs
      obtain ⟨s, hs, hlist⟩ := except_map_eq_ok.mp hsubs
      exact ⟨s, hlist.symm, makeSub_sub hs⟩

/-- The rows of the object list for an object. -/
lemma objectRow_eq_ok {o : Object} {r : ObjectRow} (h : objectRow o = .ok r) :
    ∃ maxsub, o.maxsub = .ok maxsub ∧ r.index = o.index ∧ r.maxsub = maxsub ∧
      r.rows = (if o.isRecord then [countRow o.name maxsub] else []) ++ o.listed.map o.subRow := by
  rw [objectRow] at h
  obtain ⟨maxsub, hmaxsub, h⟩ := except_bind_eq_ok.mp h
  cases h
  exact ⟨maxsub, hmaxsub, rfl, rfl, rfl⟩

lemma foldl_max_ge (subs : List Sub) (m : ℕ) :
    m ≤ subs.foldl (fun m s => max m s.sub) m ∧
      ∀ s ∈ subs, s.sub ≤ subs.foldl (fun m s => max m s.sub) m := by
  induction subs generalizing m with
  | nil => exact ⟨Nat.le_refl m, fun s hs => absurd hs List.not_mem_nil⟩
  | cons s subs ih =>
      obtain ⟨hle, hall⟩ := ih (max m s.sub)
      rw [List.foldl_cons]
      constructor
      · exact Nat.le_trans (Nat.le_max_left _ _) hle
      · intro s' hs'
        rcases List.mem_cons.mp hs' with rfl | hs'
        · exact Nat.le_trans (Nat.le_max_right _ _) hle
        · exact hall s' hs'

lemma foldl_max_le {subs : List Sub} {m n : ℕ} (hm : m ≤ n) (h : ∀ s ∈ subs, s.sub ≤ n) :
    subs.foldl (fun m s => max m s.sub) m ≤ n := by
  induction subs generalizing m with
  | nil => exact hm
  | cons s subs ih =>
      rw [List.foldl_cons]
      apply ih
      · exact Nat.max_le.mpr ⟨hm, h s List.mem_cons_self⟩
      · exact fun s' hs' => h s' (List.mem_cons_of_mem _ hs')

/-- `maxsub` is the highest subindex. -/
lemma maxsub_ge {o : Object} {n : ℕ} (h : o.maxsub = .ok n) : ∀ s ∈ o.subs, s.sub ≤ n := by
  rw [Object.maxsub] at h
  split at h
  · cases h
  case h_2 s rest hsubs =>
    cases h
    obtain ⟨hfirst, hrest⟩ := foldl_max_ge rest s.sub
    intro s' hs'
    rw [hsubs] at hs'
    rcases List.mem_cons.mp hs' with rfl | hs'
    · exact hfirst
    · exact hrest s' hs'

lemma maxsub_le {o : Object} {n m : ℕ} (h : o.maxsub = .ok n) (hle : ∀ s ∈ o.subs, s.sub ≤ m) :
    n ≤ m := by
  rw [Object.maxsub] at h
  split at h
  · cases h
  case h_2 s rest hsubs =>
    cases h
    apply foldl_max_le
    · exact hle s (by rw [hsubs]; exact List.mem_cons_self)
    · exact fun s' hs' => hle s' (by rw [hsubs]; exact List.mem_cons_of_mem _ hs')

lemma Object.listed_record {o : Object} (hrecord : o.isRecord = true) :
    o.listed = o.subs.filter fun s => s.sub ≠ 0 := by
  rw [Object.listed, if_pos hrecord]

lemma Object.Numbered.sub_le {o : Object} (h : o.Numbered) {s : Sub} (hs : s ∈ o.listed) :
    s.sub ≤ o.listed.length := by
  have hmem : s.sub ∈ o.listed.map Sub.sub := List.mem_map_of_mem hs
  rw [h.subs, List.mem_range'_1] at hmem
  omega

/-- The entry of a subindex is at its place. -/
lemma Object.Numbered.listed_at {o : Object} (h : o.Numbered) {s : Sub} (hs : s ∈ o.listed) :
    o.listed[s.sub - 1]? = some s ∧ 1 ≤ s.sub := by
  obtain ⟨i, hi, rfl⟩ := List.mem_iff_getElem.mp hs
  have hmapped : (o.listed.map Sub.sub)[i]? = some o.listed[i].sub := by
    rw [List.getElem?_map, List.getElem?_eq_getElem hi]
    rfl
  rw [h.subs, List.getElem?_range' hi] at hmapped
  have hsub : o.listed[i].sub - 1 = i ∧ 1 ≤ o.listed[i].sub := by
    have heq := Option.some.inj hmapped
    omega
  rw [hsub.1]
  exact ⟨List.getElem?_eq_getElem hi, hsub.2⟩

lemma entryOf_eq_some {index sub : ℕ} {o : Object} {s : Sub}
    (h : entryOf objs index sub = some (o, s)) :
    o ∈ objs ∧ o.index = index ∧ s ∈ o.subs ∧ s.sub = sub := by
  rw [entryOf, Option.bind_eq_some_iff] at h
  obtain ⟨o', ho', h⟩ := h
  rw [Option.map_eq_some_iff] at h
  obtain ⟨s', hs', h⟩ := h
  cases h
  have hindex := List.find?_some ho'
  have hsub := List.find?_some hs'
  simp only [decide_eq_true_eq] at hindex hsub
  exact ⟨List.mem_of_find?_eq_some ho', hindex, List.mem_of_find?_eq_some hs', hsub⟩

/-- An entry has a row of its own, which `SDO_findsubindex` finds: an object that is one entry
has that row, and the sub-entries of a numbered object have theirs after the count. -/
lemma sub_found {rxBytes txBytes : ℕ} (h : Generates cfg out rxBytes txBytes) {o : Object}
    {s : Sub} {r : ObjectRow} (ho : o ∈ out.objects) (hs : s ∈ o.subs) (hr : objectRow o = .ok r)
    (hrecord : o.isRecord = true → o.Numbered ∧ s.sub ≠ 0) :
    s.sub ≤ 255 ∧ sdoFindsubindex (r.objectlist addr) (.ofNat 8 s.sub) = .ok (some s.sub) ∧
      (r.objectlist addr).row s.sub = .ok ((o.subRow s).objd addr) := by
  obtain ⟨maxsub, hmaxsub, -, hrmaxsub, hrows⟩ := objectRow_eq_ok hr
  have hle := maxsub_ge hmaxsub s hs
  have hplace : r.rows[s.sub]? = some (o.subRow s) ∧ maxsub ≤ 255 := by
    by_cases hrec : o.isRecord = true
    · obtain ⟨hnumbered, hne⟩ := hrecord hrec
      have hmem : s ∈ o.listed := by
        rw [Object.listed_record hrec, List.mem_filter]
        exact ⟨hs, decide_eq_true hne⟩
      obtain ⟨hat, hpos⟩ := hnumbered.listed_at hmem
      constructor
      · rw [hrows, if_pos hrec, List.singleton_append, List.getElem?_cons, if_neg hne,
          List.getElem?_map, hat]
        rfl
      · apply Nat.le_trans _ hnumbered.length_le
        apply maxsub_le hmaxsub
        intro s' hs'
        by_cases hzero : s'.sub = 0
        · omega
        · apply hnumbered.sub_le
          rw [Object.listed_record hrec, List.mem_filter]
          exact ⟨hs', decide_eq_true hzero⟩
    · obtain ⟨only, honly, hzero⟩ := buildObjects_plain h.objects ho (Bool.eq_false_iff.mpr hrec)
      have hsame : s = only := by
        rw [honly] at hs
        exact List.mem_singleton.mp hs
      subst hsame
      constructor
      · rw [hrows, if_neg hrec, Object.listed, if_neg hrec, honly, hzero]
        rfl
      · apply Nat.le_trans (@maxsub_le o maxsub 0 hmaxsub ?_) (Nat.zero_le _)
        intro s' hs'
        rw [honly, List.mem_singleton] at hs'
        rw [hs', hzero]
  obtain ⟨hat, hbyte⟩ := hplace
  have hrow : (r.objectlist addr).row s.sub = .ok ((o.subRow s).objd addr) := by
    rw [row_eq_ok]
    change (r.rows.map (Row.objd addr))[s.sub]? = _
    rw [List.getElem?_map, hat]
    rfl
  have hnat : (BitVec.ofNat 8 s.sub).toNat = s.sub := by
    rw [BitVec.toNat_ofNat]
    omega
  refine ⟨by omega, ?_, hrow⟩
  have hdirect : BitVec.ofNat 8 s.sub ≤ (r.objectlist addr).maxsub := by
    change BitVec.ofNat 8 s.sub ≤ BitVec.ofNat 8 r.maxsub
    rw [BitVec.le_def, hnat, BitVec.toNat_ofNat, hrmaxsub]
    omega
  have hsub : ((o.subRow s).objd addr).subindex = (BitVec.ofNat 8 s.sub).setWidth 16 := by
    apply BitVec.eq_of_toNat_eq
    rw [BitVec.toNat_setWidth, hnat]
    change (BitVec.ofNat 16 s.sub).toNat = _
    rw [BitVec.toNat_ofNat]
  rw [sdoFindsubindex, if_pos hdirect, hnat, hrow]
  change (if decide (_ = _) = true then _ else _) = _
  rw [if_pos (decide_eq_true hsub)]
  rfl

end lookups

/-! ## The dictionary -/

/-- Every entry that needs storage has some: no variable lies at address 0, and an entry that
the master can write, or that is longer than the constant field, has a variable or is a text. -/
structure Backed (out : Output) (addr : Place → ℕ) : Prop where
  addr_ne : ∀ p, addr p ≠ 0
  bits_lt : ∀ o ∈ out.objects, ∀ s ∈ o.listed, s.bits < 2 ^ 32
  entry : ∀ o ∈ out.objects, ∀ s ∈ o.listed, s.access ≠ .ro ∨ 32 < s.bits →
    s.type = .string ∨ s.var.isSome = true

/-- The master cannot write a constant. -/
lemma not_writable_ro {d : Objd} (h : d.flags = Access.ro.atype) : ¬ d.Writable := by
  rintro ⟨state, haccess⟩
  rw [Objd.access, h] at haccess
  rcases haccess with ⟨hbit, -⟩ | ⟨hbit, -⟩ | ⟨hbit, -⟩
  · exact hbit (by decide)
  · exact hbit (by decide)
  · exact hbit (by decide)

/-- The data pointer of a row. -/
lemma subRow_data_ne {addr : Place → ℕ} (haddr : ∀ p, addr p ≠ 0) (o : Object) {s : Sub}
    (h : s.type = .string ∨ s.var.isSome = true) : ((o.subRow s).objd addr).data ≠ 0 := by
  have hplace : ∀ p, (o.subRow s).data = some p → ((o.subRow s).objd addr).data ≠ 0 := by
    intro p hp
    simp only [Row.objd, hp]
    exact haddr p
  cases hvar : s.var with
  | some var =>
      cases haxis : o.axis with
      | none => exact hplace (.obj var) (by simp [Object.subRow, Sub.place, hvar, haxis])
      | some n => exact hplace (.axis n var) (by simp [Object.subRow, Sub.place, hvar, haxis])
  | none =>
      have htype : s.type = .string := by
        rcases h with h | h
        · exact h
        · rw [hvar] at h
          cases h
      cases hvalue : s.value with
      | int n => exact hplace (.text (toString n)) (by
          simp [Object.subRow, Sub.place, hvar, htype, hvalue])
      | str text => exact hplace (.text text) (by
          simp [Object.subRow, Sub.place, hvar, htype, hvalue])

/-- A constant of at most 32 bits that the master can only read. -/
def Row.IsConst (r : Row) : Prop := r.access = Access.ro.atype ∧ r.bits ≤ 32

lemma constRow_const (subindex : ℕ) (datatype : Word) {bits : ℕ} (name : String) (value : ℤ)
    (h : bits ≤ 32) : (constRow subindex datatype bits name value).IsConst := ⟨rfl, h⟩

lemma mappingRows_const {entries : List MapEntry} {n : ℕ} :
    ∀ row ∈ mappingRows n entries, row.IsConst := by
  induction entries generalizing n with
  | nil => exact fun row hrow => absurd hrow List.not_mem_nil
  | cons e entries ih =>
      intro row hrow
      rcases List.mem_cons.mp hrow with rfl | hrow
      · exact constRow_const _ _ _ _ (by decide)
      · exact ih row hrow

lemma assignRows_const {pdos : List Pdo} {n : ℕ} : ∀ row ∈ assignRows n pdos, row.IsConst := by
  induction pdos generalizing n with
  | nil => exact fun row hrow => absurd hrow List.not_mem_nil
  | cons p pdos ih =>
      intro row hrow
      rcases List.mem_cons.mp hrow with rfl | hrow
      · exact constRow_const _ _ _ _ (by decide)
      · exact ih row hrow

lemma countRow_const (name : String) (count : ℕ) : (countRow name count).IsConst :=
  constRow_const _ _ _ _ (by decide)

/-- The rows of the object list are those of the entries, and constants. -/
lemma objectlist_row {rxBytes txBytes : ℕ} (h : Generates cfg out rxBytes txBytes) {r : ObjectRow}
    (hr : r ∈ out.objectlist) {row : Row} (hrow : row ∈ r.rows) :
    (∃ o ∈ out.objects, ∃ s ∈ o.listed, row = o.subRow s) ∨ row.IsConst := by
  cases (emitObjectlist_tabulates h.objectlist).isFor r hr with
  | object o ho hr =>
      obtain ⟨maxsub, -, -, -, hrows⟩ := objectRow_eq_ok hr
      rw [hrows] at hrow
      rcases List.mem_append.mp hrow with hrow | hrow
      · right
        split at hrow
        · rw [List.mem_singleton.mp hrow]
          exact countRow_const _ _
        · exact absurd hrow List.not_mem_nil
      · obtain ⟨s, hs, rfl⟩ := List.mem_map.mp hrow
        exact .inl ⟨o, ho, s, hs, rfl⟩
  | pdo p hp hr =>
      subst hr
      right
      rcases List.mem_cons.mp hrow with rfl | hrow
      · exact countRow_const _ _
      · exact mappingRows_const row hrow
  | smType hr =>
      subst hr
      right
      rcases List.mem_cons.mp hrow with rfl | hrow
      · exact countRow_const _ _
      · obtain ⟨k, -, rfl⟩ := List.mem_map.mp hrow
        exact constRow_const _ _ _ _ (by decide)
  | rxAssign hr =>
      subst hr
      right
      rcases List.mem_cons.mp hrow with rfl | hrow
      · exact countRow_const _ _
      · exact assignRows_const row hrow
  | txAssign hr =>
      subst hr
      right
      rcases List.mem_cons.mp hrow with rfl | hrow
      · exact countRow_const _ _
      · exact assignRows_const row hrow

/-- What can be written, or is longer than the constant field, has storage. -/
lemma rows_backed {rxBytes txBytes : ℕ} (h : Generates cfg out rxBytes txBytes)
    {addr : Place → ℕ} (hbacked : Backed out addr) :
    ∀ o ∈ out.rows addr, ∀ d ∈ o.objdesc, d.Writable ∨ 32 < d.bitlength.toNat → d.data ≠ 0 := by
  intro o ho d hd hneed
  obtain ⟨r, hr, rfl⟩ := List.mem_map.mp ho
  obtain ⟨row, hrow, rfl⟩ := List.mem_map.mp hd
  have hbits : (row.objd addr).bitlength.toNat = row.bits % 2 ^ 32 := BitVec.toNat_ofNat _ _
  rw [hbits] at hneed
  rcases objectlist_row h hr hrow with ⟨o, ho, s, hs, rfl⟩ | ⟨haccess, hshort⟩
  · change _ ∨ 32 < s.bits % 2 ^ 32 at hneed
    rw [Nat.mod_eq_of_lt (hbacked.bits_lt o ho s hs)] at hneed
    apply subRow_data_ne hbacked.addr_ne
    apply hbacked.entry o ho s hs
    rcases hneed with hwritable | hlong
    · left
      rintro hro
      exact not_writable_ro (congrArg Access.atype hro) hwritable
    · exact .inr hlong
  · rcases hneed with hwritable | hlong
    · exact absurd hwritable (not_writable_ro haccess)
    · omega

/-- The generated object list is a dictionary as the stack asks for one. -/
def Output.dictionary (out : Output) (addr : Place → ℕ)
    (hgen : ∃ cfg rxBytes txBytes, Generates cfg out rxBytes txBytes) (hfits : Fits out)
    (hbacked : Backed out addr) : Dictionary where
  objects := out.rows addr
  ascending := hgen.elim fun _ hgen => hgen.elim fun _ hgen => hgen.elim fun _ hgen =>
    rows_ascending addr hgen hfits
  below_sentinel := rows_below addr hfits
  storage := hgen.elim fun _ hgen => hgen.elim fun _ hgen => hgen.elim fun _ hgen =>
    rows_backed hgen hbacked

/-! ## An example -/

/-- A drive of two axes: a control word and two words of status, with padding. -/
def exampleDrive : Cfg where
  device := []
  count := 2
  stride := 0x800
  objects := [
    { index := 0x6040
      axis := true
      entry := { name := "Controlword", type := .u16, access := .rw, var := some "Controlword" } },
    { index := 0x6060
      axis := true
      entry := { name := "Modes of operation", type := .i8, access := .rw, var := some "Mode" } },
    { index := 0x2000
      axis := true
      entry := { name := "Status" }
      subs := some [
        { sub := 1, entry := { name := "Faults", var := some "Faults" } },
        { sub := 2, entry := { name := "Flags", type := .u16, var := some "Flags" } }] },
    { index := 0x1C32
      entry := { name := "SM2 Sync Parameters" }
      subs := some [
        { sub := 1, entry :=
          { name := "Sync Mode", type := .u16, access := .rw, var := some "SM2Sync.SyncMode" } },
        { sub := 2,
          entry := { name := "Cycle Time", access := .rw, var := some "SM2Sync.CycleTime" } },
        { sub := 5, entry := { name := "Minimum Cycle Time", value := .int 250000 } },
        { sub := 0x20, entry :=
          { name := "Sync Error", type := .bool, var := some "SM2Sync.SyncError" } }] }]
  rxpdo := { index := 0x1600, name := "Out", entries := [.object 0x6040 0 none,
    .object 0x6060 0 none, .pad 8] }
  txpdo := { index := 0x1A00, name := "In", entries := [.object 0x2000 2 none,
    .object 0x2000 1 none] }
  syncManagers := { mbxOut := 0x1000, mbxIn := 0x1100, outputs := 0x1200, inputs := 0x1300 }
  mailbox := { size := 256, sizeBoot := 256, buffers := 3 }

/-- Every variable of the example has four bytes of its own. -/
def exampleAddr : Place → ℕ
  | .obj var => 0x1000 + 4 * var.length
  | .axis n var => 0x2000 + 0x40 * n + 4 * var.length
  | .text s => 0x3000 + 4 * s.length

lemma exampleDrive_accepted : (generate exampleDrive).toOption.isSome = true := by
  decide +kernel

/-- What the generator makes of the example. -/
def exampleOutput : Output := (generate exampleDrive).toOption.get exampleDrive_accepted

lemma except_eq_ok_get {ε α : Type} {x : Except ε α} (h : x.toOption.isSome = true) :
    x = .ok (x.toOption.get h) := by
  cases x with
  | error e => cases h
  | ok a => rfl

lemma exampleDrive_output : generate exampleDrive = .ok exampleOutput :=
  except_eq_ok_get exampleDrive_accepted

lemma exampleOutput_fits : Fits exampleOutput := by decide +kernel

lemma exampleAddr_ne (p : Place) : exampleAddr p ≠ 0 := by
  cases p <;> simp [exampleAddr]

lemma exampleOutput_backed : Backed exampleOutput exampleAddr :=
  ⟨exampleAddr_ne, by decide +kernel, by decide +kernel⟩

lemma exampleOutput_generates :
    ∃ cfg rxBytes txBytes, Generates cfg exampleOutput rxBytes txBytes :=
  ⟨exampleDrive, generate_eq_ok exampleDrive_output⟩

/-- The dictionary of the example. -/
def exampleDriveDictionary : Dictionary :=
  exampleOutput.dictionary exampleAddr exampleOutput_generates exampleOutput_fits
    exampleOutput_backed

end Soes.GenOd
