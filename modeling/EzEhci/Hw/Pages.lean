import EzEhci.Hw.Qtd

/-!
# Buffer pages

The controller does not add offsets to an address. It splits the offset of a
byte, counted from the start of the first page, into a page number and an
offset in that page, and forms the address from the pointers of that page
(`Qtd.byteAddr`). `PagesCover` is what a driver needs of
`BufferPtrs::new_contiguous`: a buffer it accepts is found at its own
addresses, and one that reaches beyond the fifth page is refused.
-/

namespace EzEhci

open Lib

/-- The pointer bits of one of the five pages. -/
def Qtd.pageBits (q : Qtd) : Nat → Option (BitVec 32 × BitVec 20)
  | 0 => some (q.extendedBufferPtrPage0, q.bufferPointerPage0.ptrUpper)
  | 1 => some (q.extendedBufferPtrPage1, q.bufferPointerPage1.ptrUpper)
  | 2 => some (q.extendedBufferPtrPage2, q.bufferPointerPage2.ptrUpper)
  | 3 => some (q.extendedBufferPtrPage3, q.bufferPointerPage3.ptrUpper)
  | 4 => some (q.extendedBufferPtrPage4, q.bufferPointerPage4.ptrUpper)
  | _ => none

/-- The address the controller computes for byte `k` of the descriptor's data; `none` beyond the
fifth page. -/
def Qtd.byteAddr (q : Qtd) (k : Nat) : Option (BitVec 64) :=
  let offset := q.bufferPointerPage0.currentOffset.toNat + k
  (q.pageBits (offset / 4096)).map fun (extended, upper) =>
    extended ++ (upper ++ BitVec.ofNat 12 (offset % 4096))

/-- The bytes lie in the five pages from the page of `ptr` on. -/
def FitsPages (ptr len : BitVec 64) : Prop := ptr.toNat % 4096 + len.toNat ≤ 0x5000

instance (ptr len : BitVec 64) : Decidable (FitsPages ptr len) := inferInstanceAs (Decidable (_ ≤ _))

theorem fitsPages_ofNat {ptr : BitVec 64} {n : Nat} (h : ptr.toNat % 4096 + n ≤ 0x5000) :
    FitsPages ptr (BitVec.ofNat 64 n) := by
  have := Nat.mod_le n (2 ^ 64)
  rw [FitsPages, BitVec.toNat_ofNat]
  omega

/-- An accepted buffer is covered by its page pointers, and one that does not fit is refused. -/
structure PagesCover (oc : OverflowChecks) (ptr len : BitVec 64) : Prop where
  covered : ∀ b, BufferPtrs.newContiguous oc ptr len = some b → ∀ (token : TransferToken) (k : Nat),
    k < len.toNat → (ptr.toNat % 4096 + k) / 4096 < 5 ∧
      (Qtd.new token b).byteAddr k = some (ptr + BitVec.ofNat 64 k)
  refused : ¬ FitsPages ptr len → BufferPtrs.newContiguous oc ptr len = none

/-! ## The pages of an accepted buffer -/

theorem page0_toNat (ptr : BitVec 64) :
    (ptr - ptr % 0x1000).toNat = ptr.toNat - ptr.toNat % 4096 := by
  rw [BitVec.toNat_sub_of_le]
  · rfl
  · exact BitVec.le_def.mpr (Nat.mod_le _ _)

theorem addU_of_lt {oc : OverflowChecks} {a b : BitVec 64} (h : a.toNat + b.toNat < 2 ^ 64) :
    addU oc a b = some (a + b) := by
  rw [addU, if_neg (by omega)]

section Accepted

variable {oc : OverflowChecks} {ptr len : BitVec 64}

/-- `new_contiguous` for a buffer that does not start at the end of the address space: the check
compares the length, counted from the start of the page, with five pages. -/
theorem newContiguous_eq (hptr : ptr.toNat - ptr.toNat % 4096 + 0x5000 < 2 ^ 64) :
    BufferPtrs.newContiguous oc ptr len =
      if len.toNat ≤ 0x5000 ∨ oc = .off ∧ 2 ^ 64 ≤ ptr.toNat - ptr.toNat % 4096 + len.toNat then
        let page0 := ptr - ptr % 0x1000
        some ⟨#v[page0, page0 + 0x1000, page0 + 0x1000 * 2, page0 + 0x1000 * 3, page0 + 0x1000 * 4],
          (ptr % 0x1000).setWidth 12⟩
      else none := by
  have hpage := page0_toNat ptr
  have hlen := len.isLt
  generalize hp0 : ptr - ptr % 0x1000 = page0 at hpage
  have hadd : ∀ c : BitVec 64, c.toNat ≤ 0x5000 → addU oc page0 c = some (page0 + c) :=
    fun c hc => addU_of_lt (by omega)
  simp only [BufferPtrs.newContiguous, hp0, hadd (0x1000 * 5) (by decide), hadd 0x1000 (by decide),
    hadd (0x1000 * 2) (by decide), hadd (0x1000 * 3) (by decide), hadd (0x1000 * 4) (by decide),
    Option.bind_eq_bind, Option.bind_some]
  have hlimit : (page0 + 0x1000 * 5).toNat = page0.toNat + 0x5000 := by
    rw [BitVec.toNat_add]
    exact Nat.mod_eq_of_lt (by simp; omega)
  by_cases hfit : len.toNat ≤ 0x5000
  · have hend : (page0 + len).toNat = page0.toNat + len.toNat := by
      rw [BitVec.toNat_add]
      exact Nat.mod_eq_of_lt (by omega)
    have hle : ¬ page0 + 0x1000 * 5 < page0 + len := by
      rw [BitVec.lt_def, hlimit, hend]
      omega
    rw [addU_of_lt (by omega), Option.bind_some, if_neg hle, if_pos (.inl hfit)]
  · by_cases hwrap : 2 ^ 64 ≤ page0.toNat + len.toNat
    · cases oc with
      | on =>
        rw [addU, if_pos ⟨rfl, hwrap⟩, if_neg (by simp [hfit])]
        rfl
      | off =>
        -- the sum wraps around and the check passes
        have hend : (page0 + len).toNat = page0.toNat + len.toNat - 2 ^ 64 := by
          rw [BitVec.toNat_add]
          omega
        have hle : ¬ page0 + 0x1000 * 5 < page0 + len := by
          rw [BitVec.lt_def, hlimit, hend]
          omega
        rw [if_pos (.inr ⟨rfl, by omega⟩)]
        simp only [addU, reduceCtorEq, false_and, if_false, Option.bind_some, if_neg hle]
    · have hend : (page0 + len).toNat = page0.toNat + len.toNat := by
        rw [BitVec.toNat_add]
        exact Nat.mod_eq_of_lt (by omega)
      have hlt : page0 + 0x1000 * 5 < page0 + len := by
        rw [BitVec.lt_def, hlimit, hend]
        omega
      rw [addU_of_lt (by omega), Option.bind_some, if_pos hlt, if_neg (by omega)]

/-- A buffer of up to a page is refused exactly at the end of the address space. -/
theorem newContiguous_eq_none_iff (hlen : len.toNat < 4096) :
    BufferPtrs.newContiguous oc ptr len = none ↔
      2 ^ 64 ≤ ptr.toNat - ptr.toNat % 4096 + 0x5000 := by
  by_cases hptr : ptr.toNat - ptr.toNat % 4096 + 0x5000 < 2 ^ 64
  · rw [newContiguous_eq hptr, if_pos (.inl (by omega))]
    simp only [reduceCtorEq, false_iff]
    omega
  · refine iff_of_true ?_ (by omega)
    have hpage := page0_toNat ptr
    have hlt := ptr.isLt
    generalize hp0 : ptr - ptr % 0x1000 = page0 at hpage
    cases oc with
    | on =>
      have hlimit : addU .on page0 (0x1000 * 5) = none := if_pos ⟨rfl, by simp; omega⟩
      simp only [BufferPtrs.newContiguous, hp0, hlimit, Option.bind_eq_bind, Option.bind_none,
        Option.bind_fun_none]
    | off =>
      -- the limit wraps around and lies below the end of the buffer
      have hlt : page0 + 0x1000 * 5 < page0 + len := by
        rw [BitVec.lt_def, BitVec.toNat_add, BitVec.toNat_add]
        simp
        omega
      simp only [BufferPtrs.newContiguous, hp0, addU, reduceCtorEq, false_and, if_false,
        Option.bind_eq_bind, Option.bind_some, if_pos hlt]

theorem pageBits_toNat {a : BitVec 64} (h : a.toNat % 4096 = 0) :
    ((a >>> 32).setWidth 32).toNat * 2 ^ 32 + ((a.setWidth 32 >>> 12).setWidth 20).toNat * 2 ^ 12 =
      a.toNat := by
  have := a.isLt
  simp only [BitVec.toNat_setWidth, BitVec.toNat_ushiftRight, Nat.shiftRight_eq_div_pow]
  omega

theorem pageBits_new (token : TransferToken) (b : BufferPtrs) (p : Fin 5) :
    (Qtd.new token b).pageBits p = some (b.ptrBits32To63 p, b.ptrBits12To31 p) := by
  rcases p with ⟨_ | _ | _ | _ | _ | p, hp⟩
  case succ.succ.succ.succ.succ => omega
  all_goals simp [Qtd.pageBits, Qtd.new]

/-- The address of byte `k` of a buffer at `ptr`, where one of five page pointers leads to it. -/
def pagedAddr (ptr : BitVec 64) (k : Nat) : Option (BitVec 64) :=
  if ptr.toNat % 4096 + k < 0x5000 then some (ptr + BitVec.ofNat 64 k) else none

/-- **The controller finds a byte of an accepted buffer** inside the five pages, and has no pointer to
it beyond. -/
theorem byteAddr_new {b : BufferPtrs} (h : BufferPtrs.newContiguous oc ptr len = some b)
    (token : TransferToken) (k : Nat) : (Qtd.new token b).byteAddr k = pagedAddr ptr k := by
  have hoff : (Qtd.new token b).bufferPointerPage0.currentOffset.toNat = ptr.toNat % 4096 := by
    have : (Qtd.new token b).bufferPointerPage0.currentOffset = b.offset := by simp [Qtd.new]
    rw [this, (BufferPtrs.newContiguous_eq_some h).2, BitVec.toNat_setWidth]
    exact Nat.mod_eq_of_lt (Nat.mod_lt _ (by decide))
  simp only [Qtd.byteAddr, hoff, pagedAddr]
  split
  case isFalse hk =>
    have hpage : 5 ≤ (ptr.toNat % 4096 + k) / 4096 := by omega
    generalize (ptr.toNat % 4096 + k) / 4096 = p at hpage
    obtain ⟨p, rfl⟩ := Nat.exists_eq_add_of_le' hpage
    rfl
  case isTrue hk =>
    have hlt : (ptr.toNat % 4096 + k) / 4096 < 5 := by omega
    have hbits := pageBits_new token b ⟨(ptr.toNat % 4096 + k) / 4096, hlt⟩
    have hpage := BufferPtrs.newContiguous_page h ⟨(ptr.toNat % 4096 + k) / 4096, hlt⟩
    simp only [hbits, Option.map_some, Option.some.injEq]
    apply BitVec.eq_of_toNat_eq
    rw [toNat_append_eq_add, toNat_append_eq_add, BitVec.toNat_add, BitVec.toNat_ofNat,
      BitVec.toNat_ofNat]
    simp only [BufferPtrs.ptrBits32To63, BufferPtrs.ptrBits12To31]
    generalize b.ptrs[(⟨(ptr.toNat % 4096 + k) / 4096, hlt⟩ : Fin 5)] = page at hpage ⊢
    -- the pages wrap around the address space as the bytes do
    have hmul : (0x1000 * BitVec.ofNat 64 ((ptr.toNat % 4096 + k) / 4096)).toNat =
        4096 * ((ptr.toNat % 4096 + k) / 4096) := by
      rw [BitVec.toNat_mul, BitVec.toNat_ofNat, Nat.mod_eq_of_lt (a := _ / _) (by omega)]
      exact Nat.mod_eq_of_lt (show 4096 * _ < _ by omega)
    have hnat := congrArg BitVec.toNat hpage
    rw [BitVec.toNat_add, page0_toNat, hmul] at hnat
    have haddr := pageBits_toNat (a := page) (by omega)
    generalize ((page >>> 32).setWidth 32).toNat = e at haddr ⊢
    generalize ((page.setWidth 32 >>> 12).setWidth 20).toNat = u at haddr ⊢
    rw [Nat.mod_mod, Nat.add_mod_mod, ← Nat.add_assoc, haddr, hnat]
    omega

end Accepted

/-- **When the page pointers cover the buffer**: it fits in the five pages, or `new_contiguous` sees
that it is too long. -/
theorem pagesCover_iff (oc : OverflowChecks) (ptr len : BitVec 64) (hptr : ptr.toNat + 0x5000 < 2 ^ 64) :
    PagesCover oc ptr len ↔ FitsPages ptr len ∨
      0x5000 < len.toNat ∧ (oc = .on ∨ ptr.toNat - ptr.toNat % 4096 + len.toNat < 2 ^ 64) := by
  have heq : BufferPtrs.newContiguous oc ptr len = _ := newContiguous_eq (by omega)
  constructor
  · intro h
    by_contra hn
    rw [not_or] at hn
    obtain ⟨hfit, hn⟩ := hn
    -- the buffer does not fit, and yet it is accepted
    have hnone := h.refused hfit
    rw [heq, if_pos] at hnone
    · cases hnone
    · rw [not_and_or, not_or, Nat.not_lt, Nat.not_lt] at hn
      rcases hn with hn | ⟨hoff, hn⟩
      · exact .inl hn
      · cases oc with
        | on => exact absurd rfl hoff
        | off => exact .inr ⟨rfl, hn⟩
  · rintro (hfit | ⟨hlong, hsees⟩)
    · refine ⟨fun b hb token k hk => ?_, fun hn => absurd hfit hn⟩
      have hpage : (ptr.toNat % 4096 + k) / 4096 < 5 := by
        unfold FitsPages at hfit
        omega
      refine ⟨hpage, ?_⟩
      rw [byteAddr_new hb, pagedAddr, if_pos (by omega)]
    · have hnone : BufferPtrs.newContiguous oc ptr len = none := by
        rw [heq, if_neg]
        rintro (hle | ⟨rfl, hwrap⟩)
        · omega
        · rcases hsees with hsees | hsees
          · cases hsees
          · omega
      refine ⟨fun b hb => ?_, fun _ => hnone⟩
      rw [hnone] at hb
      cases hb

/-- The buffer that ends with the fifth page, and one that is refused. -/
theorem pagesCover_fifth_page : PagesCover .off 0x1800 0x4800 ∧ PagesCover .off 0x1800 0x5001 :=
  ⟨(pagesCover_iff .off 0x1800 0x4800 (by decide)).mpr (by decide),
    (pagesCover_iff .off 0x1800 0x5001 (by decide)).mpr (by decide)⟩

/-- A buffer of five pages that starts in the middle of a page is accepted, although its last bytes
are in a sixth page. -/
theorem not_pagesCover_sixth_page :
    ¬ ∀ (oc : OverflowChecks) (ptr len : BitVec 64), ptr.toNat + 0x5000 < 2 ^ 64 →
      PagesCover oc ptr len := by
  intro h
  have hnone := (h .on 0x1800 0x5000 (by decide)).refused (by decide)
  revert hnone
  decide +kernel

end EzEhci
