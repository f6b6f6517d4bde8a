import EasyStressTest.EndDetector

/-!
What the end detector promises chunk by chunk: it keeps the reply as it came, it closes only
after a tag and a blank line, and it misses neither when both fit into its window of 40 bytes and
the last chunk is short enough not to push the tag out.
-/

namespace EasyStressTest.EndWindow
open Define HttpTask Options Tasks Callbacks Loop Search EndDetector

/-- A closing tag, and a blank line after its end. -/
def HasEnd (received : List UInt8) : Prop :=
  ∃ pos blank, (OccursAt htmlEnd received pos ∨ OccursAt htmlEndUpper received pos) ∧
    OccursAt blankLine received blank ∧ pos + htmlEnd.length ≤ blank

/-- The closing tag begins at s, and the blank line after it ends just before e. An upper-case tag
counts when no lower-case one was received. -/
structure EndsBefore (received : List UInt8) (s e : Nat) : Prop where
  tag : OccursAt htmlEnd received s ∨
    OccursAt htmlEndUpper received s ∧ ∀ pos, ¬OccursAt htmlEnd received pos
  blank : OccursAt blankLine received (e - blankLine.length)
  after : s + htmlEnd.length + blankLine.length ≤ e

/-- The casts never move the window later. -/
theorem searchOffset_le {sizeBits : Nat} (wide : 32 ≤ sizeBits) (size : Nat) :
    searchOffset sizeBits size ≤ size - 40 := by
  by_cases short : size < 40
  · rw [searchOffset_eq wide (by omega)]
  · have natural : (size : Int) - 40 = ((size - 40 : Nat) : Int) := by omega
    rw [searchOffset, natural, BitVec.ofInt_natCast]
    split
    · exact Nat.zero_le _
    · rw [BitVec.toNat_ofNat]
      exact Nat.mod_le _ _

theorem occursAt_getElem {pattern text : List UInt8} {position k : Nat}
    (occurs : OccursAt pattern text position) (inside : k < pattern.length) :
    text[position + k]? = pattern[k]? := by
  obtain ⟨rest, joined⟩ := occurs
  rw [← List.getElem?_drop, ← joined, List.getElem?_append_left inside]

/-- A blank line that does not begin before a tag begins after its end. -/
theorem blank_after_tag {tag text : List UInt8} {pos blank : Nat} (noCr : 13 ∉ tag)
    (there : OccursAt tag text pos) (ends : OccursAt blankLine text blank) (order : pos ≤ blank) :
    pos + tag.length ≤ blank := by
  by_contra overlap
  have inside : blank - pos < tag.length := by omega
  have first : text[blank]? = some 13 := occursAt_getElem (k := 0) ends (by decide)
  have same := occursAt_getElem there inside
  rw [Nat.add_sub_cancel' order, first] at same
  exact noCr (List.mem_of_getElem? same.symm)

theorem htmlEnd_noCr : 13 ∉ htmlEnd := by decide

theorem htmlEndUpper_noCr : 13 ∉ htmlEndUpper := by decide

theorem htmlEndUpper_length : htmlEndUpper.length = htmlEnd.length := by decide

theorem hasEnd_of_endFound {received : List UInt8} {offset : Nat}
    (found : endFound received offset = true) : HasEnd received := by
  rcases (endFound_iff received offset).mp found with lower | ⟨_, upper⟩
  · obtain ⟨pos, blank, _, order, there, ends⟩ := lower
    exact ⟨pos, blank, Or.inl there, ends, blank_after_tag htmlEnd_noCr there ends order⟩
  · obtain ⟨pos, blank, _, order, there, ends⟩ := upper
    have beyond := blank_after_tag htmlEndUpper_noCr there ends order
    rw [htmlEndUpper_length] at beyond
    exact ⟨pos, blank, Or.inr there, ends, beyond⟩

/-- A tag that is not before the window is found. -/
theorem endFound_of_endsBefore {received : List UInt8} {s e offset : Nat}
    (ends : EndsBefore received s e) (within : offset ≤ s) : endFound received offset = true := by
  have order : s ≤ e - blankLine.length := by
    have after := ends.after
    omega
  apply (endFound_iff received offset).mpr
  rcases ends.tag with lower | ⟨upper, none⟩
  · exact Or.inl ⟨s, _, within, order, lower, ends.blank⟩
  · exact Or.inr ⟨fun pos _ => none pos, s, _, within, order, upper, ends.blank⟩

theorem onRecv_whole (sizeBits : Nat) (received chunk : List UInt8) :
    HttpData.onRecv sizeBits ⟨received, received.length⟩ chunk chunk.length =
      (⟨received ++ chunk, (received ++ chunk).length⟩,
        endFound (received ++ chunk) (searchOffset sizeBits ((received ++ chunk).length : Nat))) := by
  simp [HttpData.onRecv, List.length_append]

/-- As long as nothing is closed, the reply data are the bytes and their number. -/
theorem feed_open {sizeBits : Nat} (received : List UInt8) (chunks : List (List UInt8))
    (unclosed : (feed sizeBits ⟨received, received.length⟩ chunks).2 = false) :
    (feed sizeBits ⟨received, received.length⟩ chunks).1 =
      ⟨received ++ chunks.flatten, (received ++ chunks.flatten).length⟩ := by
  induction chunks generalizing received with
  | nil => simp [feed]
  | cons chunk rest ih =>
    rw [feed, onRecv_whole] at unclosed ⊢
    cases closed : endFound (received ++ chunk) (searchOffset sizeBits ((received ++ chunk).length : Nat)) with
    | true =>
      rw [closed] at unclosed
      cases unclosed
    | false =>
      rw [closed] at unclosed
      exact (ih (received ++ chunk) unclosed).trans (by rw [List.flatten_cons, List.append_assoc])

/-- The next chunk, when nothing was closed before, or else nothing more is delivered. -/
theorem feed_concat (sizeBits : Nat) (httpData : HttpData) (chunks : List (List UInt8))
    (chunk : List UInt8) :
    feed sizeBits httpData (chunks ++ [chunk]) =
      if (feed sizeBits httpData chunks).2 then feed sizeBits httpData chunks
      else (feed sizeBits httpData chunks).1.onRecv sizeBits chunk chunk.length := by
  induction chunks generalizing httpData with
  | nil =>
    cases result : httpData.onRecv sizeBits chunk chunk.length with
    | mk next closed => cases closed <;> simp [feed, result]
  | cons first rest ih =>
    simp only [List.cons_append, feed]
    split
    · rfl
    · exact ih _

/-- From fresh reply data: after each chunk up to the first close the data are the bytes received
and their number, and a close has found an end; and the close comes with the chunk at the latest
that completes an end of at most 40 bytes, if that chunk is not longer than what the window has
to spare. This is what the loop makes of the chunks for a task of any reachable state. -/
theorem detector_sound_complete {sizeBits : Nat} (wide : 32 ≤ sizeBits) (chunks : List (List UInt8))
    (chunk : List UInt8) :
    ((feed sizeBits HttpData.fresh chunks).2 = false →
      (feed sizeBits HttpData.fresh (chunks ++ [chunk])).1 =
        ⟨chunks.flatten ++ chunk, (chunks.flatten ++ chunk).length⟩ ∧
      ((feed sizeBits HttpData.fresh (chunks ++ [chunk])).2 = true → HasEnd (chunks.flatten ++ chunk))) ∧
    (∀ s e, EndsBefore (chunks.flatten ++ chunk) s e → e - s ≤ 40 → chunks.flatten.length < e →
      chunk.length ≤ 41 - (e - s) → (feed sizeBits HttpData.fresh (chunks ++ [chunk])).2 = true) ∧
    ∀ longBits config info p, builtin config = true → Listening ⟨sizeBits, longBits⟩ config info p →
      (∀ piece ∈ chunks ++ [chunk], 0 < piece.length ∧ piece.length ≤ readBufSize) →
        ∃ last, receive ⟨sizeBits, longBits⟩ config p info (chunks ++ [chunk]) = some last ∧
          (last.heap p).reversed = some (feed sizeBits HttpData.fresh (chunks ++ [chunk])).1 ∧
          (last.heap p).deleteImmediately = (feed sizeBits HttpData.fresh (chunks ++ [chunk])).2 := by
  have arrives : (feed sizeBits HttpData.fresh chunks).2 = false →
      feed sizeBits HttpData.fresh (chunks ++ [chunk]) =
        (⟨chunks.flatten ++ chunk, (chunks.flatten ++ chunk).length⟩,
          endFound (chunks.flatten ++ chunk)
            (searchOffset sizeBits ((chunks.flatten ++ chunk).length : Nat))) := by
    intro unclosed
    have before : (feed sizeBits HttpData.fresh chunks).1 = ⟨chunks.flatten, chunks.flatten.length⟩ :=
      feed_open [] chunks unclosed
    rw [feed_concat, unclosed, if_neg Bool.false_ne_true, before, onRecv_whole]
  refine ⟨?_, ?_, fun _ _ _ _ http listening sized => listening.receives http sized⟩
  · intro unclosed
    rw [arrives unclosed]
    exact ⟨rfl, hasEnd_of_endFound⟩
  · intro s e ends short reaches fits
    cases closed : (feed sizeBits HttpData.fresh chunks).2 with
    | true => rw [feed_concat, closed, if_pos rfl, closed]
    | false =>
      rw [arrives closed]
      apply endFound_of_endsBefore ends
      calc
        _ ≤ (chunks.flatten ++ chunk).length - 40 := searchOffset_le wide _
        _ ≤ s := by
          rw [List.length_append]
          omega

/-- The blank line comes with the second chunk of 24 bytes, 17 bytes after the tag began. -/
theorem detector_completes :
    ∃ info last, session ⟨64, 32⟩ mainConfig (fun _ => none) requestSent = some info ∧
      receive ⟨64, 32⟩ mainConfig 0 info ([bytes "<html></html>"] ++
        [bytes "\n\n\n\n\n\n\r\n\r\n              "]) = some last ∧
      (last.heap 0).deleteImmediately = true := by
  obtain ⟨_, completes, receives⟩ := detector_sound_complete (show 32 ≤ 64 by decide) [bytes "<html></html>"]
    (bytes "\n\n\n\n\n\n\r\n\r\n              ")
  obtain ⟨info, ran, listening⟩ := requestSent_listening
  obtain ⟨last, received, _, closed⟩ := receives 32 mainConfig info 0 (by decide) listening (by decide)
  refine ⟨info, last, ran, received, closed.trans ?_⟩
  apply completes 6 23 _ (by decide) (by decide) (by decide)
  exact ⟨Or.inl (by decide), by decide, by decide⟩

end EasyStressTest.EndWindow
