import Soes.Properties.CsrChunks
import Soes.Properties.FifoWords
import Soes.Stack.RegisterFile

/-!
# Reads that fail

`ESC_read` returns nothing but bytes, so a caller does not see that a read has failed.  Once a fault
is latched every read gives zeros; the read during which it is latched should give zeros as well
(`ReadsClean`).

`ESC_read_csr` clears its buffer when it fails, so a read in one such access is clean.  A read in
several is not, because the accesses before the failure stand; nor is one behind which the AL event
register is read, for by then the data are there.  `ESC_read_pram` clears nothing: its buffer keeps
what its caller left in it, or a part of the data.  The reads that are clean are those of
`CleanRead` (`reads_clean_iff`).
-/

namespace Soes

namespace Hal

open Program PramTransfer ByteStore

variable {χ : Type} {env : HalEnv χ} {k : ℕ} {s : HalMem χ}

/-- A failing read gives zeros, whatever the bus does and whenever the fault is latched. -/
def ReadsClean (opts : Options) (address : ℕ) (buf : ByteStore) (len : ℕ) (fault : Bool) (fd : ℤ) :
    Prop :=
  ∀ (χ : Type) (env : HalEnv χ) (k : ℕ) (s : HalMem χ), env.opts = opts → s.hwFault = fault →
    s.spiFd = fd → wlp env k (escRead address buf len)
      (fun buf' s' => s'.hwFault = true → ∀ i < len, buf' i = 0) s

/-- The reads that are clean: the HAL is out of use already, nothing is asked for, or the AL
event register is not read behind, and the read is one access, or one FIFO for a buffer of zeros. -/
def CleanRead (opts : Options) (address : ℕ) (buf : ByteStore) (len : ℕ) (fault : Bool) (fd : ℤ) :
    Prop :=
  fault = true ∨ fd < 0 ∨ len = 0 ∨ aleventTailNeeded opts address = false ∧
    if 0x1000 ≤ address then
      wordsLeft ⟨buf, len, 0⟩ (address % 4) ≤ 16 ∧ ∀ i < len, buf i = 0
    else csrChunkSize address len = len

/-! ## Clean reads -/

/-- A wait without a fault has seen its value. -/
lemma wlp_poll {reg : ℕ} {accept : Dword → Bool} {failed : Dword → Dword} :
    wlp env k (poll reg accept failed) (fun value s' => s'.hwFault = false → accept value = true)
      s := by
  rw [poll, wlp_bind, deadlineSet, wlp_transact]
  refine wlp_loop (fun _ _ => True) trivial fun _ s₁ _ => ?_
  rw [pollRound, wlp_bind]
  refine (wlp_true _).mono fun value s₂ _ => ?_
  rw [wlp_get_bind]
  refine (wlp_ite _ _ _ _).mpr ⟨fun hfault => ?_, fun hfault => (wlp_ite _ _ _ _).mpr
    ⟨fun haccept => ?_, fun _ => ?_⟩⟩
  · rw [wlp_pure]
    intro hnone
    rw [hnone] at hfault
    cases hfault
  · rw [wlp_pure]
    exact fun _ => haccept
  · rw [wlp_bind]
    refine (wlp_true _).mono fun passed s₃ _ => (wlp_ite _ _ _ _).mpr ⟨fun _ => ?_, fun _ => ?_⟩
    · rw [wlp_bind, hwTimeout, wlp_modify, wlp_pure]
      intro hnone
      cases hnone
    · rw [wlp_pure]
      trivial

/-- A bus transfer latches a fault if it fails, and only then. -/
lemma wlp_spiXfer {buf : ByteStore} {len : ℕ} {Q : Option ByteStore → HalMem χ → Prop}
    (hsome : ∀ f c, Q (some f) { s with chip := c })
    (hnone : ∀ c, Q none { s with chip := c, hwFault := true }) :
    wlp env k (spiXfer buf len) Q s := by
  rw [spiXfer, wlp_transact]
  generalize env.spi.xfer s.chip buf len = answer
  obtain ⟨_ | f, c⟩ := answer
  · simp only [Option.isNone_none, Bool.or_true]
    exact hnone c
  · simp only [Option.isNone_some, Bool.or_false]
    exact hsome f c

/-- A register that cannot be read is taken for 0. -/
lemma lan9252Read32_clean {address : ℕ} (hs : s.hwFault = false) :
    wlp env k (lan9252Read32 address) (fun value s' => s'.hwFault = true → value = 0) s := by
  rw [lan9252Read32, wlp_bind]
  refine wlp_spiXfer (fun f c => ?_) fun c => ?_
  · rw [wlp_pure]
    intro hfault
    rw [hs] at hfault
    cases hfault
  · rw [wlp_pure]
    exact fun _ => rfl

lemma ofDword_zero (i : ℕ) : ofDword 0 i = 0 := by
  rw [ofDword.eq_def]
  split <;> rfl

/-- `ESC_read_csr` gives zeros if it fails. -/
lemma escReadCsr_clean {address len : ℕ} (hs : s.hwFault = false) :
    wlp env k (escReadCsr address len)
      (fun bytes s' => s'.hwFault = true → ∀ i, bytes i = 0) s := by
  have hclean {Q : Prop} (hfault : s.hwFault = true) : Q := by
    rw [hs] at hfault
    cases hfault
  rw [escReadCsr, wlp_bind]
  refine wlp_spiXfer (fun f c => ?_) fun c => (wlp_pure _ _).mpr fun _ _ => rfl
  simp only [wlp_bind]
  refine wlp_spiXfer (fun f₁ c₁ => ?_) fun c => (wlp_pure _ _).mpr fun _ _ => rfl
  simp only [wlp_bind]
  refine wlp_spiXfer (fun f₂ c₂ => ?_) fun c => (wlp_pure _ _).mpr fun _ _ => rfl
  simp only [escReadCsrValue]
  refine (wlp_ite _ _ _ _).mpr ⟨fun _ => ?_, fun _ => (wlp_pure _ _).mpr hclean⟩
  rw [wlp_bind]
  refine (wlp_true _).mono fun _ s₃ _ => ?_
  rw [wlp_get_bind]
  refine (wlp_ite _ _ _ _).mpr ⟨fun _ => (wlp_pure _ _).mpr fun _ _ => rfl, fun hfault => ?_⟩
  rw [wlp_bind]
  refine (lan9252Read32_clean (Bool.eq_false_iff.mpr hfault)).mono fun value s₄ hvalue => ?_
  rw [wlp_pure]
  intro hfault₄ i
  rw [hvalue hfault₄]
  exact ofDword_zero i

/-- A read in one command is clean. -/
lemma csrRead_clean {address len : ℕ} {buf : ByteStore} (hs : s.hwFault = false)
    (hone : csrChunkSize address len = len) :
    wlp env k (loop csrReadRound ⟨address, len, 0, buf⟩)
      (fun buf' s' => s'.hwFault = true → ∀ i < len, buf' i = 0) s := by
  refine wlp_loop (fun t s' => t = ⟨address, len, 0, buf⟩ ∧ s'.hwFault = false ∨
    t.len = 0 ∧ (s'.hwFault = true → ∀ i < len, t.buf i = 0)) (.inl ⟨rfl, hs⟩) ?_
  intro t s₁ hinv
  rw [csrReadRound]
  by_cases hdone : t.len = 0
  · rw [if_pos hdone, wlp_pure]
    rcases hinv with ⟨rfl, -⟩ | ⟨-, hclean⟩
    · intro _ i hi
      rw [show len = 0 from hdone] at hi
      exact absurd hi (Nat.not_lt_zero _)
    · exact hclean
  · rw [if_neg hdone]
    rcases hinv with ⟨rfl, hfault⟩ | ⟨hzero, -⟩
    · rw [wlp_bind]
      refine (escReadCsr_clean hfault).mono fun bytes s₂ hbytes => ?_
      rw [wlp_pure, hone]
      refine .inr ⟨Nat.sub_self _, fun hfault₂ i hi => ?_⟩
      have hin : 0 ≤ i ∧ i < 0 + len := ⟨Nat.zero_le _, by omega⟩
      exact (if_pos hin).trans (hbytes hfault₂ _)
    · exact absurd hzero hdone

/-- A FIFO that has every word ends the transfer. -/
lemma takeWords_all {first n i : ℕ} {data : ByteStore} {t t' : PramTransfer} (hfirst : first < 4)
    (h : takeWords first data n i t = .ok t') (hn : t.wordsLeft first ≤ n) : t'.len = 0 := by
  have hleft := takeWords_wordsLeft hfirst h
  refine (@wordsLeft_eq_zero t' first).mp ?_
  omega

/-- The FIFO has as many words as have been waited for. -/
lemma le_fifoSize {range : ℕ} {value : Dword}
    (h : decide (value &&& escPramCmdAvail ≠ 0 ∧ range ≤ escPramCmdCnt value) = true) :
    range ≤ fifoSize value := by
  rw [fifoSize_eq]
  exact (of_decide_eq_true h).2

/-- A read of the process RAM in one FIFO is clean if its buffer is zero before. -/
lemma pramRead_clean {address len : ℕ} {buf : ByteStore} (hzero : ∀ i < len, buf i = 0)
    (hone : wordsLeft ⟨buf, len, 0⟩ (address % 4) ≤ 16) :
    wlp env k (escReadPram address buf len)
      (fun buf' s' => s'.hwFault = true → ∀ i < len, buf' i = 0) s := by
  have hfirst : address % 4 < 4 := Nat.mod_lt _ (by decide)
  rw [escReadPram, wlp_bind]
  refine (wlp_true _).mono fun started s₁ _ => (wlp_ite _ _ _ _).mpr ⟨fun _ => ?_, fun _ =>
    (wlp_pure _ _).mpr fun _ => hzero⟩
  refine wlp_loop (fun t s' => t = ⟨buf, len, 0⟩ ∨ t.len = 0 ∧ s'.hwFault = false) (.inl rfl) ?_
  intro t s₂ hinv
  rw [pramReadRound]
  by_cases hdone : t.len = 0
  · rw [if_pos hdone, wlp_pure]
    rcases hinv with rfl | ⟨-, hnone⟩
    · exact fun _ => hzero
    · intro hfault
      rw [hnone] at hfault
      cases hfault
  · rw [if_neg hdone]
    rcases hinv with rfl | ⟨hlen, -⟩
    · rw [wlp_bind, pramWaitFifo]
      refine wlp_poll.mono fun value s₃ hvalue => ?_
      rw [wlp_get_bind]
      refine (wlp_ite _ _ _ _).mpr ⟨fun _ => (wlp_pure _ _).mpr fun _ => hzero, fun hfault => ?_⟩
      have hnone := Bool.eq_false_iff.mpr hfault
      have hrange := le_fifoSize (hvalue hnone)
      rw [pramFifoRange_eq (t := ⟨buf, len, 0⟩) hdone, Nat.min_eq_right hone] at hrange
      rw [wlp_bind, wlp_lift]
      intro buffer _
      rw [wlp_bind]
      refine wlp_spiXfer (fun data c => ?_) fun c => (wlp_pure _ _).mpr fun _ => hzero
      simp only [wlp_map, wlp_lift]
      exact fun t' ht' => .inr ⟨takeWords_all hfirst ht' hrange, hnone⟩
    · exact absurd hlen hdone

/-- The reads of `CleanRead` are clean. -/
lemma readsClean_of_cleanRead {opts : Options} {address len : ℕ} {buf : ByteStore} {fault : Bool}
    {fd : ℤ} (h : CleanRead opts address buf len fault fd) :
    ReadsClean opts address buf len fault fd := by
  intro χ env k s hopts hfault hfd
  rw [escRead, wlp_get_bind]
  refine (wlp_ite _ _ _ _).mpr ⟨fun _ => ?_, fun husable => ?_⟩
  · rw [wlp_pure]
    intro _ i hi
    have hin : 0 ≤ i ∧ i < 0 + len := ⟨Nat.zero_le _, by omega⟩
    exact if_pos hin
  · rw [not_or, hfault, hfd] at husable
    have hnone : s.hwFault = false := by
      rw [hfault]
      exact Bool.eq_false_iff.mpr husable.1
    rcases (h.resolve_left husable.1).resolve_left husable.2 with hlen | ⟨htail, hread⟩
    · refine (wlp_true _).mono fun buf' s' _ => ?_
      intro _ i hi
      omega
    · have hbytes : wlp env k (escReadBytes address buf len)
          (fun buf' s' => s'.hwFault = true → ∀ i < len, buf' i = 0) s := by
        rw [escReadBytes]
        by_cases hram : 0x1000 ≤ address
        · rw [if_pos hram] at hread ⊢
          exact pramRead_clean hread.2 hread.1
        · rw [if_neg hram] at hread ⊢
          exact csrRead_clean hnone hread
      rw [wlp_bind]
      refine hbytes.mono fun buf' s' hclean => ?_
      have hkept : wlp env k (escReadTail address buf' len)
          (fun _ s₂ => s₂.hwFault = s'.hwFault) s' := by
        rw [escReadTail, aleventTail]
        refine (wlp_ite _ _ _ _).mpr ⟨fun _ => (wlp_modify _ _).mpr rfl, fun _ => ?_⟩
        rw [wlp_ask_bind, hopts, when, if_neg (by rw [htail]; exact Bool.false_ne_true), wlp_pure]
      rw [wlp_bind]
      refine hkept.mono fun _ s₂ hsame => ?_
      rw [wlp_pure, hsame]
      exact hclean

/-! ## A bus that fails -/

/-- What the failing bus answers: a command register with it is not busy and has 16 words, and no
byte that it has for data is zero. -/
def flakyReply (i : ℕ) : Byte := if i = 4 then 0x10 else 0x01

/-- A bus that answers some transfers and fails from then on. -/
def flaky : Spi ℕ where
  xfer left _ _ := if left = 0 then (none, 0) else (some flakyReply, left - 1)
  clock _ := 0

/-- The HAL on the failing bus. -/
def flakyEnv (opts : Options) : HalEnv ℕ := ⟨flaky, 100, opts⟩

lemma flakyReply_ne_zero (i : ℕ) : flakyReply i ≠ 0 := by
  rw [flakyReply]
  by_cases hi : i = 4
  · rw [if_pos hi]
    decide
  · rw [if_neg hi]
    decide

section flaky

variable {opts : Options} {left : ℕ} {fault : Bool} {fd : ℤ} {ev : Dword}

/-- A transfer that is answered. -/
lemma spiXfer_answered {buf : ByteStore} {len : ℕ} {Q : Option ByteStore → HalMem ℕ → Prop}
    (hQ : Q (some flakyReply) ⟨left, fault, fd, ev⟩) :
    wp (flakyEnv opts) k (spiXfer buf len) Q ⟨left + 1, fault, fd, ev⟩ := by
  rw [spiXfer, wp_transact]
  have hsame : (fault || false) = fault := Bool.or_false fault
  rw [← hsame] at hQ
  exact hQ

/-- A transfer that fails. -/
lemma spiXfer_failed {buf : ByteStore} {len : ℕ} {Q : Option ByteStore → HalMem ℕ → Prop}
    (hQ : Q none ⟨0, true, fd, ev⟩) :
    wp (flakyEnv opts) k (spiXfer buf len) Q ⟨0, fault, fd, ev⟩ := by
  rw [spiXfer, wp_transact]
  have hset : (fault || true) = true := Bool.or_true fault
  rw [← hset] at hQ
  exact hQ

/-- A wait that is answered. -/
lemma poll_answered {reg : ℕ} {accept : Dword → Bool} {failed : Dword → Dword}
    {Q : Dword → HalMem ℕ → Prop} (haccept : accept (frameValue flakyReply) = true)
    (hQ : Q (frameValue flakyReply) ⟨left, false, fd, ev⟩) :
    wp (flakyEnv opts) (k + 1) (poll reg accept failed) Q ⟨left + 1, false, fd, ev⟩ := by
  rw [poll, wp_bind, deadlineSet, wp_transact]
  change wp (flakyEnv opts) (k + 1) (rounds _ (k + 1) ()) Q _
  rw [rounds, wp_bind, pollRound, wp_bind, lan9252Read32, wp_bind]
  refine spiXfer_answered ?_
  rw [wp_pure, wp_get_bind, if_neg (by exact Bool.false_ne_true), if_pos (by exact haccept),
    wp_pure, wp_pure]
  exact hQ

/-- A wait on the failed bus. -/
lemma poll_failed {reg : ℕ} {accept : Dword → Bool} {failed : Dword → Dword}
    {Q : Dword → HalMem ℕ → Prop} (hQ : ∀ value, Q value ⟨0, true, fd, ev⟩) :
    wp (flakyEnv opts) (k + 1) (poll reg accept failed) Q ⟨0, fault, fd, ev⟩ := by
  rw [poll, wp_bind, deadlineSet, wp_transact]
  change wp (flakyEnv opts) (k + 1) (rounds _ (k + 1) ()) Q _
  rw [rounds, wp_bind, pollRound, wp_bind, lan9252Read32, wp_bind]
  refine spiXfer_failed ?_
  rw [wp_pure, wp_get_bind, if_pos (by exact rfl), wp_pure, wp_pure]
  exact hQ _

/-- An access that is answered. -/
lemma escReadCsr_answered {address len : ℕ} {Q : ByteStore → HalMem ℕ → Prop}
    (hQ : Q (ofDword (frameValue flakyReply)) ⟨left, false, fd, ev⟩) :
    wp (flakyEnv opts) k (escReadCsr address len) Q ⟨left + 3, false, fd, ev⟩ := by
  have hidle : decide (frameValue flakyReply &&& escCsrCmdBusy ≠ 0) = false := by decide
  rw [escReadCsr, wp_bind]
  refine spiXfer_answered ?_
  simp only [wp_bind]
  refine spiXfer_answered ?_
  simp only [wp_bind]
  refine spiXfer_answered ?_
  simp only [hidle, escReadCsrValue, Bool.false_eq_true, if_false, wp_pure]
  exact hQ

/-- An access on the failed bus. -/
lemma escReadCsr_failed {address len : ℕ} {Q : ByteStore → HalMem ℕ → Prop}
    (hQ : Q (fun _ => 0) ⟨0, true, fd, ev⟩) :
    wp (flakyEnv opts) k (escReadCsr address len) Q ⟨0, fault, fd, ev⟩ := by
  rw [escReadCsr, wp_bind]
  refine spiXfer_failed ?_
  rw [wp_pure]
  exact hQ

/-- Registers: the first access is answered, and its bytes stay in the buffer. -/
lemma csrRead_flaky {address len : ℕ} {buf : ByteStore} (hlen : len ≠ 0) :
    wp (flakyEnv opts) (len + 1) (loop csrReadRound ⟨address, len, 0, buf⟩)
      (fun buf' s' => buf' 0 ≠ 0 ∧ s'.chip = 0 ∧
        (s'.hwFault = false → csrChunkSize address len = len)) ⟨3, false, fd, ev⟩ := by
  refine wp_loop (fun t s' => t = ⟨address, len, 0, buf⟩ ∧ s' = ⟨3, false, fd, ev⟩ ∨
    0 < t.pos ∧ t.buf 0 ≠ 0 ∧ s'.chip = 0 ∧
      (s'.hwFault = false → t.len = len - csrChunkSize address len)) (fun t _ => t.len)
    (.inl ⟨rfl, rfl⟩) (Nat.lt_succ_self _) ?_
  intro t s₁ hinv
  rw [csrReadRound]
  by_cases hdone : t.len = 0
  · rw [if_pos hdone, wp_pure]
    rcases hinv with ⟨rfl, -⟩ | ⟨-, hne, hchip, hfirst⟩
    · exact absurd hdone hlen
    · refine ⟨hne, hchip, fun hnone => ?_⟩
      have hle : csrChunkSize address len ≤ len := csrChunkSize_le hlen
      have hzero := hfirst hnone
      omega
  · have hsize : 0 < csrChunkSize t.address t.len := csrChunkSize_pos hdone
    rw [if_neg hdone, wp_bind]
    rcases hinv with ⟨rfl, rfl⟩ | ⟨hpos, hne, hchip, hfirst⟩
    · have hpos : 0 < csrChunkSize address len := csrChunkSize_pos hlen
      refine escReadCsr_answered ?_
      rw [wp_pure]
      refine ⟨.inr ⟨?_, ?_, rfl, fun _ => rfl⟩, ?_⟩
      · exact Nat.lt_of_lt_of_le hpos (Nat.le_add_left _ _)
      · have hin : 0 ≤ 0 ∧ 0 < 0 + csrChunkSize address len := ⟨Nat.le_refl _, by omega⟩
        have hbyte : (buf.copy 0 (csrChunkSize address len) (ofDword (frameValue flakyReply)) 0) 0 =
            ofDword (frameValue flakyReply) 0 := if_pos hin
        change (buf.copy 0 (csrChunkSize address len) (ofDword (frameValue flakyReply)) 0) 0 ≠ 0
        rw [hbyte]
        decide
      · change len - csrChunkSize address len < len
        omega
    · obtain ⟨chip, fault, fd', ev'⟩ := s₁
      cases hchip
      refine escReadCsr_failed ?_
      rw [wp_pure]
      refine ⟨.inr ⟨?_, ?_, rfl, fun h => nomatch h⟩, ?_⟩
      · exact Nat.lt_of_lt_of_le hpos (Nat.le_add_right _ _)
      · have hout : ¬ (t.pos ≤ 0 ∧ 0 < t.pos + csrChunkSize t.address t.len) := by omega
        exact (if_neg hout).trans_ne hne
      · change t.len - csrChunkSize t.address t.len < t.len
        omega

/-- The first byte of the buffer stays. -/
lemma takeWords_keeps {first n i : ℕ} {data : ByteStore} {t t' : PramTransfer}
    (h : takeWords first data n i t = .ok t') (hoff : 0 < t.byteOffset) : t'.buf 0 = t.buf 0 := by
  induction n generalizing i t with
  | zero =>
      cases h
      rfl
  | succ n ih =>
      rw [takeWords] at h
      by_cases hlen : t.len = 0
      · rw [if_pos hlen] at h
        cases h
        rfl
      · rw [if_neg hlen] at h
        by_cases hsize : escPramBufSize < i + 4
        · rw [if_pos hsize] at h
          cases h
        · rw [if_neg hsize] at h
          refine (ih h (Nat.lt_of_lt_of_le hoff (Nat.le_add_right _ _))).trans ?_
          rw [takeWord_eq]
          exact copy_of_outside (.inl hoff)

/-- The first byte of the buffer comes from the first word. -/
lemma takeWords_first {first n : ℕ} {t t' : PramTransfer} (hfirst : first < 4)
    (h : takeWords first flakyReply (n + 1) 3 t = .ok t') (hlen : t.len ≠ 0)
    (hoff : t.byteOffset = 0) : t'.buf 0 ≠ 0 := by
  have hpos := tempLen_pos hfirst hlen
  rw [takeWords, if_neg hlen] at h
  by_cases hsize : escPramBufSize < 3 + 4
  · rw [if_pos hsize] at h
    cases h
  · rw [if_neg hsize] at h
    rw [takeWords_keeps h (Nat.lt_of_lt_of_le hpos (Nat.le_add_left _ _)), takeWord_eq, hoff]
    have hin : 0 ≤ 0 ∧ 0 < 0 + t.tempLen first := ⟨Nat.le_refl _, by omega⟩
    exact (if_pos hin).trans_ne (flakyReply_ne_zero _)

/-- Process RAM: one FIFO is answered, and its bytes stay in the buffer. -/
lemma pramRead_flaky {address len : ℕ} {buf : ByteStore} (hlen : len ≠ 0) :
    wp (flakyEnv opts) (k + 3) (escReadPram address buf len)
      (fun buf' s' => buf' 0 ≠ 0 ∧ s'.chip = 0 ∧
        (s'.hwFault = false → wordsLeft ⟨buf, len, 0⟩ (address % 4) ≤ 16))
      ⟨6, false, fd, ev⟩ := by
  have hfirst : address % 4 < 4 := Nat.mod_lt _ (by decide)
  rw [escReadPram, wp_bind, pramStart, wp_bind, lan9252Write32, wp_bind]
  refine spiXfer_answered ?_
  rw [wp_pure, wp_bind, waitUntil]
  refine poll_answered (by decide) ?_
  rw [wp_get_bind, if_neg (by exact Bool.false_ne_true), wp_bind, lan9252Write32, wp_bind]
  refine spiXfer_answered ?_
  rw [wp_pure, wp_bind, lan9252Write32, wp_bind]
  refine spiXfer_answered ?_
  rw [wp_pure, wp_pure, if_pos rfl]
  refine wp_loop (fun t s' => t = ⟨buf, len, 0⟩ ∧ s' = ⟨2, false, fd, ev⟩ ∨
    t.buf 0 ≠ 0 ∧ s'.chip = 0 ∧ (t.len = 0 → wordsLeft ⟨buf, len, 0⟩ (address % 4) ≤ 16))
    (fun _ s' => s'.chip) (.inl ⟨rfl, rfl⟩)
    (Nat.lt_of_lt_of_le (Nat.lt_succ_self 2) (Nat.le_add_left 3 k)) ?_
  intro t s₁ hinv
  rw [pramReadRound]
  by_cases hdone : t.len = 0
  · rw [if_pos hdone, wp_pure]
    rcases hinv with ⟨rfl, -⟩ | ⟨hne, hchip, hall⟩
    · exact absurd hdone hlen
    · exact ⟨hne, hchip, fun _ => hall hdone⟩
  · rw [if_neg hdone, wp_bind, pramWaitFifo]
    rcases hinv with ⟨rfl, rfl⟩ | ⟨hne, hchip, hall⟩
    · have hrange : pramFifoRange len 0 (address % 4) ≤ 16 := Nat.min_le_right _ _
      have hcount : escPramCmdCnt (frameValue flakyReply) = 16 := by decide
      have havail : frameValue flakyReply &&& escPramCmdAvail ≠ 0 := by decide
      have hsize : fifoSize (frameValue flakyReply) = 16 := by rw [fifoSize_eq, hcount]
      refine poll_answered (decide_eq_true ⟨havail, hcount ▸ hrange⟩) ?_
      rw [wp_get_bind, if_neg (by exact Bool.false_ne_true), hsize, wp_bind, wp_lift]
      refine ⟨_, fifoCommand_isOk _ _ (by decide), ?_⟩
      rw [wp_bind]
      refine spiXfer_answered ?_
      obtain ⟨t', ht'⟩ := @takeWords_isOk (address % 4) 16 3 flakyReply ⟨buf, len, 0⟩ (by decide)
      simp only [wp_map, wp_lift]
      refine ⟨t', ht', .inr ⟨takeWords_first hfirst ht' hdone rfl, trivial, fun hzero => ?_⟩, ?_⟩
      · have hleft := takeWords_wordsLeft hfirst ht'
        rw [wordsLeft_eq_zero.mpr hzero] at hleft
        omega
      · decide
    · obtain ⟨chip, fault, fd', ev'⟩ := s₁
      cases hchip
      refine poll_failed fun value => ?_
      rw [wp_get_bind, if_pos (by exact rfl), wp_pure]
      refine ⟨hne, rfl, ?_⟩
      intro hdone
      cases hdone

/-- Behind the access a fault is latched, if it has not been before. -/
lemma escReadTail_flaky {address len : ℕ} {buf : ByteStore} {s : HalMem ℕ} (hchip : s.chip = 0)
    (h : s.hwFault = true ∨ aleventTailNeeded opts address = true) :
    wp (flakyEnv opts) k (escReadTail address buf len) (fun _ s' => s'.hwFault = true) s := by
  rw [escReadTail]
  by_cases hevent : address = escregAlevent ∧ 4 ≤ len
  · have hnone : aleventTailNeeded opts address ≠ true := by simp [aleventTailNeeded, hevent.1]
    rw [if_pos hevent, wp_modify]
    exact h.resolve_right hnone
  · rw [if_neg hevent, aleventTail, wp_ask_bind]
    refine .when (fun _ => ?_) fun hnone => h.resolve_right hnone
    obtain ⟨chip, fault, fd', ev'⟩ := s
    cases hchip
    rw [wp_bind]
    refine escReadCsr_failed ?_
    rw [wp_modify]

end flaky

/-- A read that ends with a fault and a byte that is not zero is not clean. -/
lemma not_readsClean {opts : Options} {address len left : ℕ} {buf : ByteStore} {fd : ℤ}
    (h : wp (flakyEnv opts) k (escRead address buf len)
      (fun buf' s' => s'.hwFault = true ∧ ∃ i < len, buf' i ≠ 0) ⟨left, false, fd, 0⟩) :
    ¬ ReadsClean opts address buf len false fd := by
  intro hclean
  obtain ⟨buf', s', hrun, hfault, i, hi, hne⟩ := h
  exact hne (hclean ℕ (flakyEnv opts) k ⟨left, false, fd, 0⟩ rfl rfl rfl buf' s' hrun hfault i hi)

section stale

variable {opts : Options} {address len : ℕ} {buf : ByteStore} {fd : ℤ}

/-- What is in the buffer after the access is there after the read, if a fault is latched in one or
behind it. -/
lemma escRead_stale {left : ℕ} (hfd : ¬ fd < 0)
    (h : wp (flakyEnv opts) k (escReadBytes address buf len) (fun buf' s' => s'.chip = 0 ∧
      (s'.hwFault = true ∨ aleventTailNeeded opts address = true) ∧ ∃ i < len, buf' i ≠ 0)
      ⟨left, false, fd, 0⟩) : ¬ ReadsClean opts address buf len false fd := by
  refine @not_readsClean k _ _ _ left _ _ ?_
  rw [escRead, wp_get_bind, if_neg (by exact fun h => h.elim Bool.false_ne_true hfd), wp_bind]
  refine h.mono fun buf' s' ⟨hchip, hfault, hstale⟩ => ?_
  rw [wp_bind]
  refine (escReadTail_flaky hchip hfault).mono fun _ s₂ hlatched => ?_
  rw [wp_pure]
  exact ⟨hlatched, hstale⟩

/-- Process RAM: the buffer was not zero, and the bus fails at once. -/
lemma pramRead_old (hfd : ¬ fd < 0) (hram : 0x1000 ≤ address) {i : ℕ} (hi : i < len)
    (hne : buf i ≠ 0) : ¬ ReadsClean opts address buf len false fd := by
  refine @escRead_stale 1 _ _ _ _ _ 0 hfd ?_
  rw [escReadBytes, if_pos hram, escReadPram, wp_bind, pramStart, wp_bind, lan9252Write32, wp_bind]
  refine spiXfer_failed ?_
  rw [wp_pure, wp_bind, waitUntil]
  refine poll_failed fun value => ?_
  rw [wp_get_bind, if_pos (by exact rfl), wp_pure, if_neg Bool.false_ne_true, wp_pure]
  exact ⟨rfl, .inl rfl, i, hi, hne⟩

/-- Process RAM: the bus fails behind one FIFO, or behind the access. -/
lemma pramRead_mixed (hfd : ¬ fd < 0) (hram : 0x1000 ≤ address) (hlen : len ≠ 0)
    (h : aleventTailNeeded opts address = true ∨ 16 < wordsLeft ⟨buf, len, 0⟩ (address % 4)) :
    ¬ ReadsClean opts address buf len false fd := by
  refine @escRead_stale (0 + 3) _ _ _ _ _ 6 hfd ?_
  rw [escReadBytes, if_pos hram]
  refine (pramRead_flaky hlen).mono fun buf' s' ⟨hne, hchip, hall⟩ => ?_
  refine ⟨hchip, ?_, 0, Nat.pos_of_ne_zero hlen, hne⟩
  by_cases hfault : s'.hwFault = true
  · exact .inl hfault
  · have hle := hall (Bool.eq_false_iff.mpr hfault)
    exact .inr (h.resolve_right (by omega))

/-- Registers: the bus fails behind one access. -/
lemma csrRead_mixed (hfd : ¬ fd < 0) (hcsr : ¬ 0x1000 ≤ address) (hlen : len ≠ 0)
    (h : aleventTailNeeded opts address = true ∨ csrChunkSize address len ≠ len) :
    ¬ ReadsClean opts address buf len false fd := by
  refine @escRead_stale (len + 1) _ _ _ _ _ 3 hfd ?_
  rw [escReadBytes, if_neg hcsr]
  refine (csrRead_flaky hlen).mono fun buf' s' ⟨hne, hchip, hall⟩ => ?_
  refine ⟨hchip, ?_, 0, Nat.pos_of_ne_zero hlen, hne⟩
  by_cases hfault : s'.hwFault = true
  · exact .inl hfault
  · have heq := hall (Bool.eq_false_iff.mpr hfault)
    exact .inr (h.resolve_right (not_not.mpr heq))

/-- **A failing read gives zeros exactly if it is one of `CleanRead`.** -/
theorem reads_clean_iff {fault : Bool} :
    ReadsClean opts address buf len fault fd ↔ CleanRead opts address buf len fault fd := by
  refine ⟨fun hclean => ?_, readsClean_of_cleanRead⟩
  by_contra hnot
  simp only [CleanRead, not_or] at hnot
  obtain ⟨hfault, hfd, hlen, hread⟩ := hnot
  cases Bool.eq_false_iff.mpr hfault
  by_cases hram : 0x1000 ≤ address
  · rw [if_pos hram] at hread
    by_cases hmixed : aleventTailNeeded opts address = true ∨
        16 < wordsLeft ⟨buf, len, 0⟩ (address % 4)
    · exact pramRead_mixed hfd hram hlen hmixed hclean
    · rw [not_or, Nat.not_lt] at hmixed
      refine hread ⟨Bool.eq_false_iff.mpr hmixed.1, hmixed.2, fun i hi => ?_⟩
      by_contra hne
      exact pramRead_old hfd hram hi hne hclean
  · rw [if_neg hram] at hread
    by_cases hmixed : aleventTailNeeded opts address = true ∨ csrChunkSize address len ≠ len
    · exact csrRead_mixed hfd hram hlen hmixed hclean
    · rw [not_or, not_not] at hmixed
      exact hread ⟨Bool.eq_false_iff.mpr hmixed.1, hmixed.2⟩

end stale

/-- A mailbox header that is read into a used buffer: if the bus fails, the caller has the old
bytes. -/
theorem old_header_kept : ¬ ReadsClean exampleOptions 0x1000 (fun _ => 0xAA) 6 false 3 :=
  pramRead_old (i := 0) (by decide) (by decide) (by decide) (by decide)

end Hal

end Soes
