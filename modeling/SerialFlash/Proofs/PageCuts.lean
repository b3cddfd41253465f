import SerialFlash.Proofs.Memory

/-!
Where data is cut that goes to several pages. The cuts are those positions of the data that lie at
multiples of the page size in the flash, and there are as many chunks as pages are touched. This
is said in closed form, without walking along the data, and the splitting that does walk comes to
the same chunks.
-/

namespace SerialFlash

/-- The number of pages touched by `length` bytes at `offset`. -/
def pageCount (offset length : Nat) : Nat :=
  if length = 0 then 0 else (offset + length - 1) / pageSize - offset / pageSize + 1

/-- How many of `length` bytes at `offset` come before their page number `j`, counted from the
page of the first one. -/
def pageCut (offset length j : Nat) : Nat :=
  min length ((offset / pageSize + j) * pageSize - offset)

/-- The part of the data that goes to its page number `j`. -/
def pageChunk (offset : Nat) (data : Bytes) (j : Nat) : Piece :=
  ⟨offset + pageCut offset data.length j,
    (data.take (pageCut offset data.length (j + 1))).drop (pageCut offset data.length j)⟩

/-- Positions that cut `length` bytes at `offset` at the page boundaries into `count` chunks, none
of them empty. -/
structure CutsPages (offset length count : Nat) (cut : Nat → Nat) : Prop where
  first : cut 0 = 0
  last : cut count = length
  increases : ∀ j < count, cut j < cut (j + 1)
  aligned : ∀ j < count, 0 < j → pageSize ∣ offset + cut j
  /-- A chunk does not cross a boundary. -/
  onePage : ∀ j < count, ∀ k, cut j ≤ k → k < cut (j + 1) →
    (offset + k) / pageSize = (offset + cut j) / pageSize

variable {offset length j : Nat} {data : Bytes}

@[simp] theorem pageCut_zero (offset length : Nat) : pageCut offset length 0 = 0 := by
  unfold pageCut pageSize
  omega

theorem pageCut_le (offset length j : Nat) : pageCut offset length j ≤ length :=
  Nat.min_le_left _ _

theorem pageCut_pageCount (offset length : Nat) :
    pageCut offset length (pageCount offset length) = length := by
  unfold pageCut pageCount pageSize
  split <;> omega

/-- Before its last page the data is cut at the boundary. -/
theorem add_pageCut (lt : j < pageCount offset length) (pos : 0 < j) :
    offset + pageCut offset length j = (offset / pageSize + j) * pageSize := by
  unfold pageCount at lt
  unfold pageCut
  unfold pageSize at *
  split at lt <;> omega

theorem pageCut_lt (lt : j < pageCount offset length) :
    pageCut offset length j < pageCut offset length (j + 1) := by
  unfold pageCount at lt
  unfold pageCut
  unfold pageSize at *
  split at lt <;> omega

/-- Only the first page has nothing in front of it. -/
theorem pageCut_eq_zero_iff (lt : j < pageCount offset length) :
    pageCut offset length j = 0 ↔ j = 0 := by
  refine ⟨fun none => Nat.eq_zero_of_not_pos fun pos => ?_, by rintro rfl; exact pageCut_zero _ _⟩
  have start := add_pageCut lt pos
  unfold pageSize at start
  omega

theorem pageCut_succ_le (offset length j : Nat) :
    offset + pageCut offset length (j + 1) ≤ (offset / pageSize + j + 1) * pageSize := by
  unfold pageCut pageSize
  omega

theorem cutsPages_pageCut (offset length : Nat) :
    CutsPages offset length (pageCount offset length) (pageCut offset length) where
  first := pageCut_zero offset length
  last := pageCut_pageCount offset length
  increases _ lt := pageCut_lt lt
  aligned _ lt pos := by
    rw [add_pageCut lt pos]
    exact Nat.dvd_mul_left _ _
  onePage j lt k le inside := by
    have stop := pageCut_succ_le offset length j
    rcases Nat.eq_zero_or_pos j with rfl | pos
    · rw [pageCut_zero] at *
      unfold pageSize at *
      omega
    · have start := add_pageCut lt pos
      unfold pageSize at *
      omega

theorem length_pageChunk (offset : Nat) (data : Bytes) (j : Nat) :
    (pageChunk offset data j).data.length =
      pageCut offset data.length (j + 1) - pageCut offset data.length j := by
  rw [pageChunk, List.length_drop, List.length_take, Nat.min_eq_left (pageCut_le _ _ _)]

theorem take_append_pageChunk (lt : j < pageCount offset data.length) :
    data.take (pageCut offset data.length j) ++ (pageChunk offset data j).data =
      data.take (pageCut offset data.length (j + 1)) := by
  have le : data.take (pageCut offset data.length j) =
      (data.take (pageCut offset data.length (j + 1))).take (pageCut offset data.length j) := by
    rw [List.take_take, Nat.min_eq_left (Nat.le_of_lt (pageCut_lt lt))]
  rw [le]
  exact List.take_append_drop _ _

/-- A chunk stays in its page. -/
theorem fits_pageChunk {size : Nat} (bound : offset + data.length ≤ size)
    (lt : j < pageCount offset data.length) : (pageChunk offset data j).Fits size where
  data_ne_nil := by
    have := pageCut_lt lt
    rw [← List.length_pos_iff, length_pageChunk]
    omega
  room := by
    have stop := pageCut_succ_le offset data.length j
    rw [length_pageChunk]
    simp only [pageChunk]
    rcases Nat.eq_zero_or_pos j with rfl | pos
    · rw [pageCut_zero]
      unfold pageSize at *
      omega
    · have start := add_pageCut lt pos
      unfold pageSize at *
      omega
  bound := by
    have := pageCut_le offset data.length (j + 1)
    have := pageCut_lt lt
    rw [length_pageChunk]
    simp only [pageChunk]
    omega

/-- The first chunk ends at the end of its page, or with the data. -/
theorem pageCut_one (offset length : Nat) :
    pageCut offset length 1 = min length (pageRoom offset) := by
  unfold pageCut pageRoom pageSize
  omega

theorem pageCount_of_pos (pos : 0 < length) :
    pageCount offset length =
      pageCount (offset + pageRoom offset) (length - pageRoom offset) + 1 := by
  unfold pageCount pageRoom pageSize
  split <;> split <;> omega

theorem pageCut_succ (long : pageRoom offset ≤ length) (j : Nat) :
    pageCut offset length (j + 1) =
      pageRoom offset + pageCut (offset + pageRoom offset) (length - pageRoom offset) j := by
  unfold pageRoom at long
  unfold pageCut pageRoom pageSize at *
  omega

/-- Behind the first page the chunks are those of what is left. -/
theorem pageChunk_succ (long : pageRoom offset ≤ data.length) (j : Nat) :
    pageChunk offset data (j + 1) =
      pageChunk (offset + pageRoom offset) (data.drop (pageRoom offset)) j := by
  simp only [pageChunk, List.length_drop, pageCut_succ long, Piece.mk.injEq]
  refine ⟨(Nat.add_assoc _ _ _).symm, ?_⟩
  rw [List.take_drop, List.drop_drop]

theorem pageChunk_zero (offset : Nat) (data : Bytes) :
    pageChunk offset data 0 = ⟨offset, data.take (pageRoom offset)⟩ := by
  rw [pageChunk, pageCut_zero, pageCut_one, List.drop_zero, Nat.min_comm,
    ← List.take_eq_take_min, Nat.add_zero]

/-- The splitting that walks along the data finds the chunks. -/
theorem splitPages_eq_chunks (bound : offset + data.length < Word32.limit) :
    splitPages offset data =
      (List.range (pageCount offset data.length)).map (pageChunk offset data) := by
  induction h : data.length using Nat.strongRecOn generalizing offset data with
  | ind n ih =>
    subst h
    by_cases empty : data = []
    · subst empty
      rw [splitPages_nil]
      rfl
    · have pos : 0 < data.length := List.length_pos_iff.mpr empty
      have room := pageRoom_pos offset
      rw [splitPages_of_ne_nil empty bound, pageCount_of_pos pos, List.range_succ_eq_map,
        List.map_cons, List.map_map, pageChunk_zero]
      congr 1
      rcases Nat.le_total (pageRoom offset) data.length with long | short
      · have full : (data.take (pageRoom offset)).length = pageRoom offset := by
          rw [List.length_take, Nat.min_eq_left long]
        have shorter : (data.drop (pageRoom offset)).length = data.length - pageRoom offset :=
          List.length_drop
        rw [full, ih _ (by omega) (by omega) rfl, shorter]
        exact List.map_congr_left fun j _ => (pageChunk_succ long j).symm
      · rw [List.drop_eq_nil_of_le short, splitPages_nil, Nat.sub_eq_zero_of_le short]
        rfl

/-- The first chunks are what comes before the next one. -/
theorem flatMap_pageChunk {n : Nat} (le : n ≤ pageCount offset data.length) :
    ((List.range n).map (pageChunk offset data)).flatMap Piece.data =
      data.take (pageCut offset data.length n) := by
  induction n with
  | zero => rw [pageCut_zero]; rfl
  | succ n ih =>
    rw [List.range_succ, List.map_append, List.flatMap_append, ih (Nat.le_of_succ_le le),
      ← take_append_pageChunk le]
    simp

/-- A first part of the chunks is the first so many of them. -/
theorem eq_of_prefix_pageChunk {pieces : List Piece} {n : Nat}
    (front : pieces <+: (List.range n).map (pageChunk offset data)) :
    pieces.length ≤ n ∧ pieces = (List.range pieces.length).map (pageChunk offset data) := by
  have le : pieces.length ≤ n := by simpa using front.length_le
  have taken := List.prefix_iff_eq_take.mp front
  rw [← List.map_take, List.take_range, Nat.min_eq_left le] at taken
  exact ⟨le, taken⟩

namespace Memory

/-- The first chunks together program what comes before the next one. -/
theorem programPieces_pageChunk {m : Memory} (bound : offset + data.length ≤ m.size) {n : Nat}
    (le : n ≤ pageCount offset data.length) :
    m.ProgramsTo offset (data.take (pageCut offset data.length n))
      (m.programPieces ((List.range n).map (pageChunk offset data))) := by
  induction n with
  | zero =>
    rw [pageCut_zero]
    exact .nil m offset
  | succ n ih =>
    have front := ih (Nat.le_of_succ_le le)
    have fits := fits_pageChunk bound le
    have chunk := program_programsTo (m := m.programPieces ((List.range n).map
      (pageChunk offset data))) fits.room (by rw [front.1]; exact fits.bound)
    have cut : (data.take (pageCut offset data.length n)).length =
        pageCut offset data.length n := by
      rw [List.length_take, Nat.min_eq_left (pageCut_le _ _ _)]
    rw [List.range_succ, List.map_append, programPieces, List.foldl_append,
      ← take_append_pageChunk le]
    refine front.append ?_
    rw [cut]
    exact chunk

end Memory

end SerialFlash
