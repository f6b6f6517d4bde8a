import Mathlib.Data.List.Basic

/-!
Splits of a stream into consecutive chunks of bounded size, by the positions at which they cut
it. A property of positions is met by every split of a stream exactly when it holds nowhere to
be avoided: at the end, or on a stretch that no chunk is long enough to jump over.
-/

namespace EasyStressTest.Chunking

variable {α : Type*}

/-- The positions reached after each chunk, when the first one begins at `start`. -/
def cuts (start : Nat) : List (List α) → List Nat
  | [] => []
  | chunk :: rest => (start + chunk.length) :: cuts (start + chunk.length) rest

structure IsSplit (limit : Nat) (stream : List α) (chunks : List (List α)) : Prop where
  joined : chunks.flatten = stream
  sized : ∀ chunk ∈ chunks, 0 < chunk.length ∧ chunk.length ≤ limit

instance [DecidableEq α] (limit : Nat) (stream : List α) (chunks : List (List α)) :
    Decidable (IsSplit limit stream chunks) :=
  decidable_of_iff (chunks.flatten = stream ∧ ∀ chunk ∈ chunks, 0 < chunk.length ∧ chunk.length ≤ limit)
    ⟨fun both => ⟨both.1, both.2⟩, fun split => ⟨split.joined, split.sized⟩⟩

theorem cuts_bounds {start cut : Nat} {chunks : List (List α)}
    (sized : ∀ chunk ∈ chunks, 0 < chunk.length) (member : cut ∈ cuts start chunks) :
    start < cut ∧ cut ≤ start + chunks.flatten.length := by
  induction chunks generalizing start with
  | nil => cases member
  | cons chunk rest ih =>
    have positive := sized chunk List.mem_cons_self
    rw [List.flatten_cons, List.length_append]
    rcases List.mem_cons.mp member with here | later
    · omega
    · have bounds := ih (fun other among => sized other (List.mem_cons_of_mem _ among)) later
      omega

/-- The last cut is the end of the stream. -/
theorem end_mem_cuts (start : Nat) {chunks : List (List α)} (nonempty : chunks ≠ []) :
    start + chunks.flatten.length ∈ cuts start chunks := by
  induction chunks generalizing start with
  | nil => exact absurd rfl nonempty
  | cons chunk rest ih =>
    rw [List.flatten_cons, List.length_append]
    by_cases last : rest = []
    · subst last
      simp [cuts]
    · have later := ih (start + chunk.length) last
      rw [Nat.add_assoc] at later
      exact List.mem_cons_of_mem _ later

/-- No split jumps over a stretch as long as the largest chunk. -/
theorem cuts_hit {limit : Nat} (start low : Nat) {chunks : List (List α)}
    (sized : ∀ chunk ∈ chunks, chunk.length ≤ limit) (before : start ≤ low)
    (inside : low < start + chunks.flatten.length) :
    ∃ cut ∈ cuts start chunks, low < cut ∧ cut ≤ low + limit := by
  induction chunks generalizing start with
  | nil =>
    simp only [List.flatten_nil, List.length_nil] at inside
    omega
  | cons chunk rest ih =>
    have short := sized chunk List.mem_cons_self
    rw [List.flatten_cons, List.length_append] at inside
    by_cases passed : low < start + chunk.length
    · exact ⟨_, List.mem_cons_self, passed, by omega⟩
    · obtain ⟨cut, member, after, near⟩ := ih (start + chunk.length)
        (fun other among => sized other (List.mem_cons_of_mem _ among)) (by omega) (by omega)
      exact ⟨cut, List.mem_cons_of_mem _ member, after, near⟩

/-- The rest of a stream can be split so that no cut fires, when the end does not fire and no
stretch as long as the largest chunk fires throughout. -/
theorem exists_avoiding_from {limit : Nat} (stream : List α) {Fires : Nat → Prop}
    (final : ¬Fires stream.length)
    (gaps : ∀ low, low + limit ≤ stream.length → ∃ i, low < i ∧ i ≤ low + limit ∧ ¬Fires i)
    (start : Nat) (within : start ≤ stream.length) :
    ∃ chunks, IsSplit limit (stream.drop start) chunks ∧ ∀ cut ∈ cuts start chunks, ¬Fires cut := by
  induction remaining : stream.length - start using Nat.strongRecOn generalizing start with
  | _ remaining ih =>
    by_cases finished : start = stream.length
    · refine ⟨[], ⟨?_, by simp⟩, by simp [cuts]⟩
      rw [finished, List.drop_length]
      rfl
    · by_cases short : stream.length - start ≤ limit
      · refine ⟨[stream.drop start], ⟨by simp, ?_⟩, ?_⟩
        · intro chunk member
          rw [List.mem_singleton.mp member, List.length_drop]
          omega
        · intro cut member
          have same : cut = stream.length := by
            simp only [cuts, List.mem_singleton, List.length_drop] at member
            omega
          rw [same]
          exact final
      · obtain ⟨i, after, near, silent⟩ := gaps start (by omega)
        obtain ⟨chunks, split, avoids⟩ := ih (stream.length - i) (by omega) i (by omega) rfl
        have size : ((stream.drop start).take (i - start)).length = i - start := by
          rw [List.length_take, List.length_drop]
          omega
        have reached : start + (i - start) = i := by omega
        refine ⟨(stream.drop start).take (i - start) :: chunks, ⟨?_, ?_⟩, ?_⟩
        · have dropped : (stream.drop start).drop (i - start) = stream.drop i := by
            rw [List.drop_drop, reached]
          rw [List.flatten_cons, split.joined, ← dropped, List.take_append_drop]
        · intro chunk member
          rcases List.mem_cons.mp member with here | later
          · rw [here, size]
            omega
          · exact split.sized chunk later
        · intro cut member
          simp only [cuts, size, reached] at member
          rcases List.mem_cons.mp member with here | later
          · rw [here]
            exact silent
          · exact avoids cut later

/-- Every position of a stream is a cut of some split. -/
theorem exists_through {limit : Nat} (positive : 0 < limit) (stream : List α) :
    ∃ chunks, IsSplit limit stream chunks ∧
      ∀ position, 0 < position → position ≤ stream.length → position ∈ cuts 0 chunks := by
  refine ⟨stream.map fun item => [item], ⟨?_, ?_⟩, ?_⟩
  · induction stream with
    | nil => rfl
    | cons item rest ih =>
      rw [List.map_cons, List.flatten_cons, ih]
      rfl
  · intro chunk member
    obtain ⟨item, _, same⟩ := List.mem_map.mp member
    rw [← same]
    exact ⟨Nat.one_pos, positive⟩
  · have every : ∀ start position, start < position → position ≤ start + stream.length →
        position ∈ cuts start (stream.map fun item => [item]) := by
      induction stream with
      | nil =>
        intro start position after inside
        simp only [List.length_nil] at inside
        omega
      | cons item rest ih =>
        intro start position after inside
        rw [List.length_cons] at inside
        by_cases here : position = start + 1
        · rw [here]
          exact List.mem_cons_self
        · exact List.mem_cons_of_mem _ (ih (start + 1) position (by omega) (by omega))
    intro position after inside
    exact every 0 position after (by omega)

/-- Two splits always agree on whether a cut fires, exactly when no position fires or every
split has a cut that does. -/
theorem splits_agree_iff {limit : Nat} (positive : 0 < limit) (stream : List α) (Fires : Nat → Prop) :
    (∀ first second, IsSplit limit stream first → IsSplit limit stream second →
      ((∃ cut ∈ cuts 0 first, Fires cut) ↔ ∃ cut ∈ cuts 0 second, Fires cut)) ↔
      ((∃ position, 0 < position ∧ position ≤ stream.length ∧ Fires position) →
        Fires stream.length ∨ ∃ low, low + limit ≤ stream.length ∧
          ∀ position, low < position → position ≤ low + limit → Fires position) := by
  obtain ⟨through, throughSplit, reaches⟩ := exists_through positive stream
  apply Iff.intro
  · intro agree ⟨position, after, inside, fires⟩
    by_contra neither
    simp only [not_or, not_exists, not_and, not_forall] at neither
    obtain ⟨avoiding, split, avoids⟩ := exists_avoiding_from stream neither.1
      (fun low room => by
        obtain ⟨i, above, below, silent⟩ := neither.2 low room
        exact ⟨i, above, below, silent⟩) 0 (Nat.zero_le _)
    obtain ⟨cut, member, fired⟩ := (agree through avoiding throughSplit split).mp
      ⟨position, reaches position after inside, fires⟩
    exact avoids cut member fired
  · intro settled first second firstSplit secondSplit
    have everywhere : (∃ position, 0 < position ∧ position ≤ stream.length ∧ Fires position) →
        ∀ chunks, IsSplit limit stream chunks → ∃ cut ∈ cuts 0 chunks, Fires cut := by
      intro some_position chunks split
      obtain ⟨position, after, inside, _⟩ := id some_position
      have total : chunks.flatten.length = stream.length := by rw [split.joined]
      rcases settled some_position with final | ⟨low, room, stretch⟩
      · have nonempty : chunks ≠ [] := by
          intro empty
          rw [empty, List.flatten_nil, List.length_nil] at total
          omega
        have last := end_mem_cuts 0 nonempty
        rw [Nat.zero_add, total] at last
        exact ⟨_, last, final⟩
      · obtain ⟨cut, member, above, below⟩ := cuts_hit 0 low
          (fun chunk among => (split.sized chunk among).2) (Nat.zero_le _) (by omega)
        exact ⟨cut, member, stretch cut above below⟩
    have fired : ∀ chunks, IsSplit limit stream chunks → (∃ cut ∈ cuts 0 chunks, Fires cut) →
        ∃ position, 0 < position ∧ position ≤ stream.length ∧ Fires position := by
      intro chunks split ⟨cut, member, fires⟩
      have bounds := cuts_bounds (fun chunk among => (split.sized chunk among).1) member
      rw [split.joined] at bounds
      exact ⟨cut, bounds.1, by omega, fires⟩
    apply Iff.intro
    · exact fun fires => everywhere (fired first firstSplit fires) second secondSplit
    · exact fun fires => everywhere (fired second secondSplit fires) first firstSplit

end EasyStressTest.Chunking
