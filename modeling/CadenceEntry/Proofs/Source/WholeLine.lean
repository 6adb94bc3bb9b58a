import CadenceEntry.Proofs.Source.FirstLine
import CadenceEntry.Proofs.Text.Encoding

/-!
# Inputs with a whole line

Decoding of the standard input stops somewhere behind the first line, wherever the chunks end, so a
line is the same source text whatever comes behind it: `Source.ofInput_of_line`. A file that holds
nothing but the line gives the line too, with its line feed if there is one.
-/

set_option autoImplicit false

namespace CadenceEntry

namespace Text

/-- A line is kept, with the line feed that ends it. -/
theorem normalizeNewlines_line {cs : List Char} (h : ∀ c ∈ cs, StaysInLine c) (ds : List Char) :
    normalizeNewlines (cs ++ '\n' :: ds) = cs ++ '\n' :: normalizeNewlines ds := by
  induction cs with
  | nil => exact normalizeNewlines_cons (by decide) ds
  | cons c cs ih =>
    rw [List.cons_append, normalizeNewlines_cons (h c List.mem_cons_self).2,
      ih fun x hx => h x (List.mem_cons_of_mem _ hx)]
    rfl

/-- There is no end of a line where there are no line ends. -/
theorem hasLine_of_staysInLine {cs : List Char} (h : ∀ c ∈ cs, StaysInLine c) :
    hasLine cs = false := by
  induction cs with
  | nil => rfl
  | cons c cs ih =>
    obtain ⟨hfeed, hreturn⟩ := h c List.mem_cons_self
    rw [hasLine, ih fun x hx => h x (List.mem_cons_of_mem _ hx)]
    · simp [hfeed, hreturn]
    · intro hc
      exact absurd hc hreturn

/-- Nothing is taken off a text that ends with another character. -/
theorem stripEnd_of_getLast? {c : Char} {cs : List Char} (h : cs.getLast? ≠ some c) :
    stripEnd c cs = cs := by
  unfold stripEnd
  have hhead : cs.reverse.dropWhile (· == c) = cs.reverse := by
    rw [← List.head?_reverse] at h
    cases hreverse : cs.reverse with
    | nil => rfl
    | cons x xs =>
      rw [hreverse] at h
      rw [List.dropWhile_cons_of_neg]
      simpa using h
  rw [hhead, List.reverse_reverse]

end Text

namespace Source

open Text

/-- What is decoded of the bytes of a text are its first characters: all of them, or those up to
the end of the first line, and maybe some more. -/
theorem exists_decodeLine {cs : List Char} {pending bytes : List UInt8} {ds : List Char}
    (h : pending ++ bytes = Utf8.encode ds) :
    ∃ new more, ds = new ++ more ∧ decodeLine cs pending bytes = .ok (cs ++ new) ∧
      (more = [] ∨ hasLine (cs ++ new) = true) := by
  fun_induction decodeLine cs pending bytes generalizing ds with
  | case1 cs pending =>
    refine ⟨ds, [], (List.append_nil ds).symm, ?_, .inl rfl⟩
    rw [List.append_nil] at h
    rw [h, Utf8.decode_encode]
    rfl
  | case2 cs pending bytes hne e he =>
    rw [← List.take_append_drop chunkSize bytes, ← List.append_assoc] at h
    obtain ⟨new, more, pending', -, -, hpart⟩ := Utf8.exists_decodePart h
    rw [he] at hpart
    exact absurd hpart (by simp)
  | case3 cs pending bytes hne new pending' hpart hline =>
    rw [← List.take_append_drop chunkSize bytes, ← List.append_assoc] at h
    obtain ⟨new', more, pending'', hds, -, hpart'⟩ := Utf8.exists_decodePart h
    rw [hpart] at hpart'
    obtain ⟨rfl, rfl⟩ := Prod.mk.inj (Except.ok.inj hpart')
    exact ⟨new, more, hds, rfl, .inr hline⟩
  | case4 cs pending bytes hne new pending' hpart hline ih =>
    rw [← List.take_append_drop chunkSize bytes, ← List.append_assoc] at h
    obtain ⟨new', more, pending'', rfl, hchunk, hpart'⟩ := Utf8.exists_decodePart h
    rw [hpart] at hpart'
    obtain ⟨rfl, rfl⟩ := Prod.mk.inj (Except.ok.inj hpart')
    -- the bytes that are open stand before the next chunk
    have hrest : pending' ++ bytes.drop chunkSize = Utf8.encode more := by
      rw [hchunk, Utf8.encode_append, List.append_assoc] at h
      exact List.append_cancel_left h
    obtain ⟨new', more', rfl, hdecode, hend⟩ := ih hrest
    rw [List.append_assoc] at hdecode hend
    exact ⟨new ++ new', more', (List.append_assoc ..).symm, hdecode, hend⟩

/-- The first line of a text is what stands before its first line feed. -/
theorem firstLine_of_line {cs : List Char} (h : ∀ c ∈ cs, StaysInLine c)
    (hend : cs.getLast? ≠ some '\x00') (ds : List Char) :
    firstLine (cs ++ '\n' :: ds) = .ok (String.ofList cs) := by
  have hline : (cs ++ '\n' :: ds).takeWhile (· != '\n') = cs := by
    rw [List.takeWhile_append_of_pos fun c hc => by simpa using (h c hc).1]
    simp
  have hreturn : cs.getLast? ≠ some '\r' := by
    intro hlast
    exact (h '\r' (List.mem_of_getLast? hlast)).2 rfl
  unfold firstLine
  rw [if_pos (by simp)]
  dsimp only
  rw [hline, stripEnd_of_getLast? hreturn, stripEnd_of_getLast? hend]

/-- A line on the standard input is the source text, whatever comes behind it. -/
theorem ofInput_of_line {line : String} (h : ∀ c ∈ line.toList, StaysInLine c)
    (hend : line.toList.getLast? ≠ some '\x00') (rest : String) :
    ofInput (.ok (line ++ "\n" ++ rest).toUTF8.toList) = .ok line := by
  have hbytes : (line ++ "\n" ++ rest).toUTF8.toList =
      Utf8.encode (line.toList ++ '\n' :: rest.toList) := by
    rw [Utf8.toList_toUTF8]
    simp
  rw [hbytes]
  have hwhole : [] ++ Utf8.encode (line.toList ++ '\n' :: rest.toList) =
      Utf8.encode (line.toList ++ '\n' :: rest.toList) := List.nil_append _
  obtain ⟨new, more, hsplit, hdecode, hstop⟩ := @exists_decodeLine [] [] _ _ hwhole
  rw [List.nil_append] at hdecode hstop
  obtain ⟨behind, rfl⟩ : ∃ behind, new = line.toList ++ '\n' :: behind := by
    rcases hstop with rfl | hline
    · exact ⟨rest.toList, by rw [hsplit, List.append_nil]⟩
    · rcases List.append_eq_append_iff.1 hsplit with ⟨behind, rfl, hbehind⟩ | ⟨part, hpart, -⟩
      · cases behind with
        | nil =>
          rw [List.append_nil, hasLine_of_staysInLine h] at hline
          exact absurd hline (by simp)
        | cons c behind =>
          obtain ⟨rfl, -⟩ := List.cons.inj hbehind
          exact ⟨behind, rfl⟩
      · -- decoding does not stop within the line
        have hnew : ∀ c ∈ new, StaysInLine c := by
          intro c hc
          rw [hpart] at h
          exact h c (List.mem_append_left part hc)
        rw [hasLine_of_staysInLine hnew] at hline
        exact absurd hline (by simp)
  unfold ofInput
  dsimp only
  rw [hdecode]
  dsimp only
  rw [normalizeNewlines_line h, firstLine_of_line h hend, String.ofList_toList]

/-- A file that holds a line gives the line. -/
theorem ofFile_of_line {line : String} (h : ∀ c ∈ line.toList, StaysInLine c) (path : String) :
    ofFile path (.ok line.toUTF8.toList) = .ok line := by
  rw [ofFile, Utf8.toList_toUTF8, Utf8.decode_encode]
  dsimp only
  rw [normalizeNewlines_of_staysInLine h, String.ofList_toList]

/-- A file that holds a line and a line feed gives both. -/
theorem ofFile_of_line_lineFeed {line : String} (h : ∀ c ∈ line.toList, StaysInLine c)
    (path : String) :
    ofFile path (.ok (line ++ "\n").toUTF8.toList) = .ok (line ++ "\n") := by
  have htext : (line ++ "\n").toList = line.toList ++ '\n' :: [] := by simp
  rw [ofFile, Utf8.toList_toUTF8, Utf8.decode_encode]
  dsimp only
  rw [htext, normalizeNewlines_line h, normalizeNewlines, ← htext, String.ofList_toList]

end Source

end CadenceEntry
