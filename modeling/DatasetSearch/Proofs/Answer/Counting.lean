import DatasetSearch.Proofs.Answer.Chunks
import Mathlib.Algebra.Order.Floor.Semiring
import Mathlib.Data.Rat.Floor

/-! # Counting chunks

A stream gives its chunks one call at a time.  `after` is the stream when `k` calls were made of it,
and `reply?` is what the next call gives; a stream without more chunks stays as it is, so it never
gives one again (`reply?_eq`).

* The number of chunks that a stream says are left is the number of those still to come, in every
  state (`length_toList`), because each call lowers it by one (`left_of_next?`).
* After `k` calls the first `k` times the chunk size of the hits are given (`Reached`), so the
  length of every chunk is known.
* The place where a chunk would end without the end of the answer is a sum of two words.  It is a
  word itself: the first sum is the chunk size, and there is a second one only if the chunk size is
  below the number of hits (`Reached.reach_lt`).
-/

namespace DatasetSearch.Chunks

/-! ### Calls -/

/-- The stream after one more call. -/
def advance (c : Chunks) : Chunks :=
  match c.next? with
  | none => c
  | some (_, c') => c'

/-- The stream after `k` calls. -/
def after (c : Chunks) : Nat → Chunks
  | 0 => c
  | k + 1 => (c.after k).advance

/-- What the next call gives after `k` calls. -/
def reply? (c : Chunks) (k : Nat) : Option Chunk := (c.after k).next?.map Prod.fst

theorem next?_eq_none_iff {c : Chunks} : c.next? = none ↔ c.answer.size ≤ c.given := by
  unfold next?
  split
  · rename_i hle
    exact iff_of_true rfl hle
  · rename_i hlt
    exact iff_of_false (Option.some_ne_none _) hlt

theorem toList_of_next?_none {c : Chunks} (h : c.next? = none) : c.toList = [] := by
  rw [toList]
  split
  · rfl
  · rename_i hnext
    rw [h] at hnext
    cases hnext

theorem toList_of_next? {c c' : Chunks} {chunk : Chunk} (h : c.next? = some (chunk, c')) :
    c.toList = chunk :: c'.toList := by
  rw [toList]
  split
  · rename_i hnext
    rw [h] at hnext
    cases hnext
  · rename_i hnext
    rw [h] at hnext
    cases hnext
    rfl

theorem toList_advance (c : Chunks) : c.advance.toList = c.toList.tail := by
  unfold advance
  cases h : c.next? with
  | none => simp [toList_of_next?_none h]
  | some p => simp [toList_of_next? h]

/-- Calls take chunks off the front. -/
theorem toList_after (c : Chunks) (k : Nat) : (c.after k).toList = c.toList.drop k := by
  induction k with
  | zero => rfl
  | succ k ih =>
      unfold after
      rw [toList_advance, ih, List.tail_drop]

/-- The calls are answered with the chunks in order, and with nothing when there are no more. -/
theorem reply?_eq (c : Chunks) (k : Nat) : c.reply? k = c.toList[k]? := by
  rw [← List.head?_drop, ← toList_after]
  unfold reply?
  cases h : (c.after k).next? with
  | none => simp [toList_of_next?_none h]
  | some p => simp [toList_of_next? h]

/-! ### The last chunk -/

/-- A chunk is the last exactly if none comes after it. -/
theorem isLast_iff_of_next? {c c' : Chunks} {chunk : Chunk} (h : c.next? = some (chunk, c')) :
    chunk.isLast = true ↔ c'.toList = [] := by
  have hend : chunk.isLast = true ↔ c'.answer.size ≤ c'.given := by
    unfold next? at h
    split at h
    · cases h
    · cases h
      rw [decide_eq_true_iff]
      exact ⟨fun hstop => Nat.le_of_eq hstop.symm, fun hle =>
        Nat.le_antisymm (Nat.min_le_right _ _) hle⟩
  rw [hend, ← next?_eq_none_iff]
  cases hnext : c'.next? with
  | none => exact iff_of_true rfl (toList_of_next?_none hnext)
  | some p => simp [toList_of_next? hnext]

/-- Of the chunks of a stream the last one says that it is, and no other does. -/
theorem isLast_iff_of_getElem? (c : Chunks) {i : Nat} {chunk : Chunk}
    (h : c.toList[i]? = some chunk) : chunk.isLast = true ↔ i + 1 = c.toList.length := by
  fun_induction toList c generalizing i with
  | case1 c _ => cases h
  | case2 c first c' hnext ih =>
      cases i with
      | zero =>
          obtain rfl := Option.some.inj h
          rw [isLast_iff_of_next? hnext, List.length_cons, ← List.length_eq_zero_iff]
          omega
      | succ i =>
          rw [ih h, List.length_cons]
          omega

/-! ### One call -/

/-- What one call does to the counts. -/
structure Counted (c : Chunks) (chunk : Chunk) (c' : Chunks) : Prop where
  given_lt : c.given < c.answer.size
  given : c'.given = min (c.given + c.chunkSize) c.answer.size
  chunkSize : c'.chunkSize = c.chunkSize
  allIds : c'.answer.ids = c.answer.ids
  allScores : c'.answer.scores = c.answer.scores
  ids : chunk.ids = (c.answer.ids.drop c.given).take (c'.given - c.given)
  scores : chunk.scores = (c.answer.scores.drop c.given).take (c'.given - c.given)

theorem counted_of_next? {c c' : Chunks} {chunk : Chunk} (h : c.next? = some (chunk, c')) :
    Counted c chunk c' := by
  unfold next? at h
  split at h
  · cases h
  · rename_i hlt
    cases h
    exact ⟨Nat.not_le.1 hlt, rfl, rfl, rfl, rfl, rfl, rfl⟩

namespace Counted

variable {c c' : Chunks} {chunk : Chunk}

theorem length_ids (h : Counted c chunk c') : chunk.ids.length = c'.given - c.given := by
  have hlt := h.given_lt
  have hgiven := h.given
  unfold Answer.size at hlt hgiven
  rw [h.ids, List.length_take, List.length_drop]
  omega

theorem length_scores (h : Counted c chunk c')
    (ha : c.answer.scores.length = c.answer.ids.length) :
    chunk.scores.length = chunk.ids.length := by
  rw [h.scores, h.ids]
  simp [ha]

end Counted

theorem left_eq_zero {c : Chunks} (h : c.next? = none) : c.left = 0 := by
  have hle := next?_eq_none_iff.1 h
  have hpos := c.chunkSize_pos
  unfold left
  apply Nat.div_eq_of_lt
  omega

/-- A call takes one of the chunks that are left. -/
theorem left_of_next? {c c' : Chunks} {chunk : Chunk} (h : c.next? = some (chunk, c')) :
    c.left = c'.left + 1 := by
  obtain ⟨hlt, hgiven, hsize, hids, -, -, -⟩ := counted_of_next? h
  have hpos := c.chunkSize_pos
  have hall : c'.answer.size = c.answer.size := congrArg List.length hids
  unfold left
  rw [hgiven, hsize, hall]
  rcases Nat.le_total (c.answer.size - c.given) c.chunkSize with hlast | hmore
  · -- the chunk is the last one
    have hone : (c.answer.size - c.given + c.chunkSize - 1) / c.chunkSize = 1 := by
      apply Nat.div_eq_of_lt_le <;> omega
    have hzero : (c.answer.size - min (c.given + c.chunkSize) c.answer.size + c.chunkSize - 1) /
        c.chunkSize = 0 := by
      apply Nat.div_eq_of_lt
      omega
    rw [hone, hzero]
  · have hsum : c.answer.size - c.given + c.chunkSize - 1 =
        c.answer.size - min (c.given + c.chunkSize) c.answer.size + c.chunkSize - 1 +
          c.chunkSize := by
      omega
    rw [hsum, Nat.add_div_right _ hpos]

/-- A stream has as many chunks to come as it says. -/
theorem length_toList (c : Chunks) : c.toList.length = c.left := by
  fun_induction toList c with
  | case1 c h => rw [left_eq_zero h, List.length_nil]
  | case2 c chunk c' h ih => rw [left_of_next? h, List.length_cons, ih]

/-! ### After some calls -/

/-- The stream of an answer in chunks of `s` hits after `k` calls. -/
structure Reached (a : Answer) (s k : Nat) (c : Chunks) : Prop where
  given : c.given = min (k * s) a.size
  chunkSize : c.chunkSize = s
  ids : c.answer.ids = a.ids
  scores : c.answer.scores = a.scores

variable {a : Answer} {s k : Nat} {c : Chunks}

theorem Reached.advance (h : Reached a s k c) : Reached a s (k + 1) c.advance := by
  have hall : c.answer.size = a.size := congrArg List.length h.ids
  have hgiven := h.given
  unfold Chunks.advance
  cases hnext : c.next? with
  | none =>
      have hle := next?_eq_none_iff.1 hnext
      refine ⟨?_, h.chunkSize, h.ids, h.scores⟩
      rw [Nat.succ_mul]
      dsimp only
      omega
  | some p =>
      obtain ⟨chunk, c'⟩ := p
      have hcount := counted_of_next? hnext
      refine ⟨?_, hcount.chunkSize.trans h.chunkSize, hcount.allIds.trans h.ids,
        hcount.allScores.trans h.scores⟩
      have hgiven' := hcount.given
      rw [h.chunkSize] at hgiven'
      rw [Nat.succ_mul]
      dsimp only
      omega

theorem reached_after (a : Answer) (size k : Nat) :
    Reached a (max size 1) k ((ofAnswer a size).after k) := by
  induction k with
  | zero => exact ⟨by simp [after, ofAnswer], rfl, rfl, rfl⟩
  | succ k ih => exact ih.advance

/-- Where the next chunk would end if the answer went on is no more than a word holds. -/
theorem Reached.reach_lt (h : Reached a s k c) (hs : s < 2 ^ 64) (ha : a.size < 2 ^ 63)
    (hlt : c.given < c.answer.size) : c.given + c.chunkSize < 2 ^ 64 := by
  have hall : c.answer.size = a.size := congrArg List.length h.ids
  have hgiven := h.given
  rw [h.chunkSize]
  cases k with
  | zero => omega
  | succ k =>
      -- the hits given before are at least one whole chunk
      have hle : s ≤ (k + 1) * s := Nat.le_mul_of_pos_left s (Nat.succ_pos k)
      omega

/-- There is a chunk to come where hits are. -/
theorem lt_count_iff (a : Answer) (size k : Nat) :
    k < (ofAnswer a size).count ↔ k * max size 1 < a.size := by
  have hpos : 0 < max size 1 := by omega
  show k < (a.size + max size 1 - 1) / max size 1 ↔ _
  rw [← Nat.succ_le_iff, Nat.le_div_iff_mul_le hpos, Nat.succ_mul]
  omega

theorem count_eq_ceil (a : Answer) (size : Nat) :
    (ofAnswer a size).count = ⌈(a.size : ℚ) / (max size 1 : Nat)⌉₊ := by
  have hpos : (0 : ℚ) < (max size 1 : Nat) := by
    rw [Nat.cast_pos]
    omega
  apply eq_of_forall_ge_iff
  intro k
  rw [Nat.ceil_le, div_le_iff₀ hpos, ← Nat.cast_mul, Nat.cast_le, ← not_lt, ← not_lt (b := a.size),
    lt_count_iff]

/-- The chunk that a call gives has as many hits as there is room for or are left. -/
theorem length_of_reply? {size : Nat} {chunk : Chunk}
    (h : (ofAnswer a size).reply? k = some chunk) :
    chunk.ids.length = min (max size 1) (a.size - k * max size 1) := by
  obtain ⟨⟨chunk', c'⟩, hnext, rfl⟩ := Option.map_eq_some_iff.1 h
  have hcount := counted_of_next? hnext
  have hreached := reached_after a size k
  have hlt := hcount.given_lt
  have hgiven := hcount.given
  have hbefore := hreached.given
  have hall : ((ofAnswer a size).after k).answer.size = a.size := congrArg List.length hreached.ids
  rw [hreached.chunkSize] at hgiven
  rw [hcount.length_ids]
  omega

/-- An answer with a score for every hit is given in `⌈n / s⌉` chunks of `s` hits, of which the last
one alone can be shorter and alone says that it is the last; then it gives nothing however often it
is asked.  Before and after each call the stream knows how many chunks are to come.  A call adds the
chunk size to the number of hits given while there are hits left, and what comes of it is never more
than a word holds. -/
theorem chunk_counts (a : Answer) (size : Nat) (haligned : a.scores.length = a.ids.length)
    (hhits : a.size < 2 ^ 63) (hsize : size < 2 ^ 64) :
    let stream := ofAnswer a size
    stream.count = ⌈(a.size : ℚ) / (max size 1 : Nat)⌉₊ ∧ (a.chunks size).length = stream.count ∧
      ∀ k, stream.reply? k = (a.chunks size)[k]? ∧
        ((stream.reply? k).isSome = true ↔ k < stream.count) ∧
        (stream.after k).left = stream.count - k ∧
        (stream.after k).left = (stream.after k).toList.length ∧
        ((stream.after k).given < (stream.after k).answer.size →
          (stream.after k).given + (stream.after k).chunkSize < 2 ^ 64) ∧
        ∀ chunk, stream.reply? k = some chunk →
          chunk.scores.length = chunk.ids.length ∧ (chunk.isLast = true ↔ k + 1 = stream.count) ∧
          (k + 1 < stream.count → chunk.ids.length = max size 1) ∧
          1 ≤ chunk.ids.length ∧ chunk.ids.length ≤ max size 1 := by
  intro stream
  have hlength : (a.chunks size).length = stream.count := length_toList (ofAnswer a size)
  refine ⟨count_eq_ceil a size, hlength, fun k => ?_⟩
  have hreply : stream.reply? k = (a.chunks size)[k]? := reply?_eq _ k
  have hleft : (stream.after k).left = (stream.after k).toList.length := (length_toList _).symm
  have hreached : Reached a (max size 1) k (stream.after k) := reached_after a size k
  refine ⟨hreply, ?_, ?_, hleft, hreached.reach_lt (by omega) hhits, fun chunk hchunk => ?_⟩
  · simp [hreply, hlength]
  · rw [hleft, toList_after, List.length_drop]
    exact congrArg (· - k) hlength
  · have hlast : chunk.isLast = true ↔ k + 1 = stream.count := by
      rw [hreply] at hchunk
      rw [isLast_iff_of_getElem? _ hchunk]
      exact Eq.congr_right hlength
    have hids := length_of_reply? hchunk
    have hlt : k < stream.count := by
      rw [← hlength]
      exact (List.getElem?_eq_some_iff.1 (hreply ▸ hchunk)).1
    have hmore : k + 1 < stream.count ↔ (k + 1) * max size 1 < a.size := lt_count_iff a size (k + 1)
    rw [lt_count_iff] at hlt
    rw [Nat.succ_mul] at hmore
    refine ⟨?_, hlast, fun hk => ?_, ?_, ?_⟩
    · obtain ⟨⟨chunk', c'⟩, hnext, rfl⟩ := Option.map_eq_some_iff.1 hchunk
      apply (counted_of_next? hnext).length_scores
      rw [hreached.scores, hreached.ids, haligned]
    · have := hmore.1 hk
      omega
    · omega
    · omega

/-- Three hits, two of one document, by two: there is a second call, and the third gives nothing. -/
theorem chunk_counts_of_three_hits :
    let a : Answer := { ids := [4, 7, 4], scores := [⟨3⟩, ⟨2⟩, ⟨1⟩], total := 9 }
    let stream := ofAnswer a 2
    a.scores.length = a.ids.length ∧ a.size < 2 ^ 63 ∧ stream.count = 2 ∧
      (stream.after 1).left = 1 ∧ (stream.after 1).given + (stream.after 1).chunkSize < 2 ^ 64 ∧
      (∃ chunk, stream.reply? 1 = some chunk ∧ chunk.ids = [4] ∧ chunk.isLast = true) ∧
      ∀ k, (stream.reply? (k + 2)).isSome = false := by
  intro a stream
  obtain ⟨-, -, hcalls⟩ := chunk_counts a 2 rfl (by decide) (by decide)
  have hcount : stream.count = 2 := by
    unfold stream a
    decide
  have hsecond : ∃ chunk, stream.reply? 1 = some chunk ∧ chunk.ids = [4] := ⟨_, rfl, rfl⟩
  obtain ⟨chunk, hchunk, hids⟩ := hsecond
  obtain ⟨-, -, hleft, -, hsum, hchunks⟩ := hcalls 1
  have hlast := (hchunks chunk hchunk).2.1
  refine ⟨rfl, by decide, hcount, ?_, hsum (by decide), ⟨chunk, hchunk, hids, ?_⟩, fun k => ?_⟩
  · exact hleft.trans (by rw [hcount])
  · exact hlast.2 hcount.symm
  · have hmore := (hcalls (k + 2)).2.1
    rw [hcount] at hmore
    exact Bool.eq_false_iff.2 fun h => absurd (hmore.1 h) (by omega)

end DatasetSearch.Chunks
