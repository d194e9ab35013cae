import Acva.Llm.SseChunks

/-!
# Line ends of a stream

`SseParser` looks for the blank line between events as two newlines in a row. Framed with carriage returns a stream
has none, so that everything waits for `finish`, and each line keeps its carriage return.
-/

namespace Acva

/-- An event as it is framed: its lines, none of them blank or with a line end in it. -/
structure SseEvent where
  lines : List Text
  nonempty : lines ≠ []
  plain : ∀ line ∈ lines, line ≠ [] ∧ 0x0A ∉ line ∧ 0x0D ∉ line

namespace SseParser

def lf : Text := [0x0A]
def crlf : Text := [0x0D, 0x0A]

/-- The lines of the events and the blank lines after them. -/
def framedLines (es : List SseEvent) : List Text := es.flatMap fun e => e.lines ++ [[]]

/-- Events on the wire, with a line end of one kind. -/
def framed (lineEnd : Text) (es : List SseEvent) : Text := (framedLines es).flatMap (· ++ lineEnd)

/-- What `emit_event` takes for data. -/
def isData (line : Text) : Bool := kDataPrefix.isPrefixOf line

/-- With either line end the same payloads are reported, with carriage returns no later than without, and the end of
the stream as well. -/
structure SameEndings (es : List SseEvent) : Prop where
  inTime : ∀ k, payloads (feed {} (framed lf (es.take k))).2 <+: payloads (feed {} (framed crlf (es.take k))).2
  payloads : payloads (session [framed lf es]) = payloads (session [framed crlf es])
  done : .done ∈ session [framed lf es] ↔ .done ∈ session [framed crlf es]

/-! ### What lines say -/

variable {line : Text} {ls : List Text}

lemma head?_of_data (hdata : isData line = true) : line.head? = some 0x64 := by
  obtain ⟨rest, rfl⟩ := List.isPrefixOf_iff_prefix.1 hdata
  rfl

lemma emitLines_data (hdata : isData line = true) :
    emitLines (line :: ls) =
      if trimLeadingSpace (line.drop kDataPrefix.length) = kDoneSentinel then (true, [.done])
      else ((emitLines ls).1, .data (trimLeadingSpace (line.drop kDataPrefix.length)) :: (emitLines ls).2) := by
  have hhead := head?_of_data hdata
  unfold isData at hdata
  rw [emitLines, if_neg (by rw [hhead]; decide), if_pos hdata]

lemma emitLines_other (ls : List Text) (hdata : isData line = false) :
    (emitLines (line :: ls)).1 = (emitLines ls).1 ∧
      payloads (emitLines (line :: ls)).2 = payloads (emitLines ls).2 := by
  unfold isData at hdata
  rw [emitLines]
  split
  · exact ⟨rfl, rfl⟩
  · rw [if_neg (by simp [hdata])]
    exact ⟨rfl, rfl⟩

lemma emitLines_of_not_data (h : ∀ line ∈ ls, isData line = false) :
    payloads (emitLines ls).2 = [] ∧ (emitLines ls).1 = false := by
  induction ls with
  | nil => exact ⟨rfl, rfl⟩
  | cons line ls ih =>
    obtain ⟨hline, hrest⟩ := List.forall_mem_cons.1 h
    obtain ⟨hdone, hpayloads⟩ := emitLines_other ls hline
    rw [hdone, hpayloads]
    exact ih hrest

lemma payload_ne_sentinel (hdata : isData (line ++ [0x0D]) = true) :
    trimLeadingSpace ((line ++ [0x0D]).drop kDataPrefix.length) ≠ kDoneSentinel := by
  obtain ⟨rest, hrest⟩ := List.isPrefixOf_iff_prefix.1 hdata
  have hlast : (kDataPrefix ++ rest).getLast? = some 0x0D := by rw [hrest, List.getLast?_concat]
  have hend : rest.getLast? = some 0x0D := by
    cases rest with
    | nil => exact absurd hlast (by decide)
    | cons c rest => rwa [List.getLast?_append_of_ne_nil _ (List.cons_ne_nil c rest)] at hlast
  rw [← hrest, List.drop_left]
  intro hsentinel
  unfold trimLeadingSpace at hsentinel
  split at hsentinel
  · rw [hsentinel] at hend
    exact absurd hend (by decide)
  · rw [hsentinel] at hend
    exact absurd hend (by decide)

/-- Lines that end with carriage returns, and blank ones, have no sentinel among them and keep all data. -/
lemma emitLines_of_returns (h : ∀ line ∈ ls, line = [] ∨ ∃ l, line = l ++ [0x0D]) :
    (emitLines ls).1 = false ∧ ((∃ line ∈ ls, isData line = true) → payloads (emitLines ls).2 ≠ []) := by
  induction ls with
  | nil => exact ⟨rfl, fun ⟨_, hmem, _⟩ => absurd hmem List.not_mem_nil⟩
  | cons line ls ih =>
    obtain ⟨hline, hrest⟩ := List.forall_mem_cons.1 h
    obtain ⟨hopen, hkeeps⟩ := ih hrest
    cases hdata : isData line with
    | true =>
      obtain rfl | ⟨l, rfl⟩ := hline
      · exact absurd hdata (by decide)
      · rw [emitLines_data hdata, if_neg (payload_ne_sentinel hdata)]
        exact ⟨hopen, fun _ => List.cons_ne_nil _ _⟩
    | false =>
      obtain ⟨hdone, hpayloads⟩ := emitLines_other ls hdata
      rw [hdone, hpayloads]
      refine ⟨hopen, fun ⟨line', hmem, hdata'⟩ => hkeeps ⟨line', ?_, hdata'⟩⟩
      refine (List.mem_cons.1 hmem).resolve_left fun heq => ?_
      rw [heq, hdata] at hdata'
      cases hdata'

/-! ### Framed streams -/

lemma lines_of_plain (cur : Text) (h : 0x0A ∉ line) : lines cur line = [cur ++ line] := by
  induction line generalizing cur with
  | nil => rw [lines, List.append_nil]
  | cons c line ih =>
    rw [List.mem_cons, not_or] at h
    obtain ⟨hc, hline⟩ := h
    rw [lines, if_neg (Ne.symm hc), ih _ hline, List.append_assoc]
    rfl

/-- A stream is its lines, each with what comes before the newline of the line end. -/
lemma lines_flatMap (returns : Text) (hreturns : 0x0A ∉ returns) (hls : ∀ line ∈ ls, 0x0A ∉ line) :
    lines [] (ls.flatMap (· ++ (returns ++ [0x0A]))) = ls.map (· ++ returns) ++ [[]] := by
  induction ls with
  | nil => rfl
  | cons line ls ih =>
    obtain ⟨hline, hrest⟩ := List.forall_mem_cons.1 hls
    have hplain : 0x0A ∉ line ++ returns := by
      rw [List.mem_append, not_or]
      exact ⟨hline, hreturns⟩
    have hcut : line ++ (returns ++ [0x0A]) ++ ls.flatMap (· ++ (returns ++ [0x0A])) =
        (line ++ returns) ++ 0x0A :: ls.flatMap (· ++ (returns ++ [0x0A])) := by simp
    rw [List.flatMap_cons, hcut, lines_append, lines_of_plain [] hplain, ih hrest]
    rfl

lemma framedLines_plain (es : List SseEvent) : ∀ line ∈ framedLines es, 0x0A ∉ line := by
  intro line hmem
  obtain ⟨e, _, hline⟩ := List.mem_flatMap.1 hmem
  rcases List.mem_append.1 hline with hline | hline
  · exact (e.plain line hline).2.1
  · rw [List.mem_singleton.1 hline]
    exact List.not_mem_nil

lemma splitEvents_plain (cur s : Text) (h : 0x0A ∉ line) :
    splitEvents cur (line ++ s) = splitEvents (cur ++ line) s := by
  induction line generalizing cur with
  | nil => rw [List.nil_append, List.append_nil]
  | cons c line ih =>
    rw [List.mem_cons, not_or] at h
    obtain ⟨hc, hline⟩ := h
    rw [List.cons_append, splitEvents, ih _ hline, List.append_assoc]
    · rfl
    · rintro s' rfl _
      exact hc rfl

lemma splitEvents_newline (cur s : Text) (h : s.head? ≠ some 0x0A) :
    splitEvents cur (0x0A :: s) = splitEvents (cur ++ [0x0A]) s := by
  rw [splitEvents]
  rintro s' _ rfl
  exact h rfl

/-- With carriage returns no event is ever complete. -/
lemma splitEvents_crlf (cur : Text) (hls : ∀ line ∈ ls, 0x0A ∉ line) :
    splitEvents cur (ls.flatMap (· ++ crlf)) = ([], cur ++ ls.flatMap (· ++ crlf)) := by
  induction ls generalizing cur with
  | nil => rw [List.flatMap_nil, splitEvents, List.append_nil]
  | cons line ls ih =>
    obtain ⟨hline, hrest⟩ := List.forall_mem_cons.1 hls
    have hplain : 0x0A ∉ line ++ [0x0D] := by
      rw [List.mem_append, not_or]
      exact ⟨hline, by decide⟩
    have hcut : line ++ crlf ++ ls.flatMap (· ++ crlf) = (line ++ [0x0D]) ++ 0x0A :: ls.flatMap (· ++ crlf) := by
      simp [crlf]
    have hnext : (ls.flatMap (· ++ crlf)).head? ≠ some 0x0A := by
      cases ls with
      | nil => simp
      | cons next ls =>
        have hnextPlain := (List.forall_mem_cons.1 hrest).1
        cases next with
        | nil => simp [crlf]
        | cons c next =>
          intro hhead
          have : c = 0x0A := by simpa using hhead
          exact hnextPlain (this ▸ List.mem_cons_self)
    rw [List.flatMap_cons, hcut, splitEvents_plain _ _ hplain, splitEvents_newline _ _ hnext, ih _ hrest]
    simp

lemma splitEvents_lf (cur s : Text) (hne : ls ≠ []) (hls : ∀ line ∈ ls, line ≠ [] ∧ 0x0A ∉ line) :
    (splitEvents cur (ls.flatMap (· ++ lf) ++ 0x0A :: s)).2 = (splitEvents [] s).2 := by
  induction ls generalizing cur with
  | nil => exact absurd rfl hne
  | cons line ls ih =>
    obtain ⟨⟨_, hline⟩, hrest⟩ := List.forall_mem_cons.1 hls
    have hcut : (line :: ls).flatMap (· ++ lf) ++ 0x0A :: s = line ++ 0x0A :: (ls.flatMap (· ++ lf) ++ 0x0A :: s) := by
      simp [lf]
    rw [hcut, splitEvents_plain _ _ hline]
    cases ls with
    | nil => rfl
    | cons next ls =>
      obtain ⟨hnextNe, hnextPlain⟩ := (List.forall_mem_cons.1 hrest).1
      rw [splitEvents_newline, ih _ (List.cons_ne_nil _ _) hrest]
      obtain ⟨c, next, rfl⟩ := List.exists_cons_of_ne_nil hnextNe
      intro hhead
      have : c = 0x0A := by simpa using hhead
      exact hnextPlain (this ▸ List.mem_cons_self)

lemma splitEvents_framed_lf (es : List SseEvent) : (splitEvents [] (framed lf es)).2 = [] := by
  induction es with
  | nil => rfl
  | cons e es ih =>
    have hcut : framed lf (e :: es) = e.lines.flatMap (· ++ lf) ++ 0x0A :: framed lf es := by
      simp [framed, framedLines, lf]
    rw [hcut, splitEvents_lf [] _ e.nonempty fun line hmem => ⟨(e.plain line hmem).1, (e.plain line hmem).2.1⟩, ih]

lemma session_lf (es : List SseEvent) : session [framed lf es] = (feed {} (framed lf es)).2 := by
  have hbuffer : (feed {} (framed lf es)).1.buffer = [] := by
    have hsplit := splitEvents_framed_lf es
    simp only [feed, Bool.false_eq_true, if_false, List.nil_append, hsplit, ite_self]
  have hfinish : (feed {} (framed lf es)).1.finish.2 = [] := by
    unfold finish
    rw [if_pos hbuffer, ite_self]
  simp only [session, feedAll, List.append_nil, hfinish]

/-- With carriage returns nothing is reported before the end. -/
lemma feed_crlf (es : List SseEvent) : (feed {} (framed crlf es)).2 = [] := by
  have hsplit := splitEvents_crlf [] (framedLines_plain es)
  simp only [feed, Bool.false_eq_true, if_false, List.nil_append, framed, hsplit, emitEvents]

lemma session_lines_lf (es : List SseEvent) :
    session [framed lf es] = (emitLines (framedLines es ++ [[]])).2 := by
  have hlines := lines_flatMap [] List.not_mem_nil (framedLines_plain es)
  rw [session_eq, List.flatten_singleton, framed]
  simpa [lf] using congrArg (fun ls => (emitLines ls).2) hlines

lemma session_lines_crlf (es : List SseEvent) :
    session [framed crlf es] = (emitLines ((framedLines es).map (· ++ [0x0D]) ++ [[]])).2 := by
  have hlines := lines_flatMap [0x0D] (by decide) (framedLines_plain es)
  rw [session_eq, List.flatten_singleton, framed]
  exact congrArg (fun ls => (emitLines ls).2) hlines

lemma isData_concat (line : Text) : isData (line ++ [0x0D]) = isData line := by
  rw [Bool.eq_iff_iff]
  simp only [isData, List.isPrefixOf_iff_prefix, List.prefix_concat_iff]
  refine or_iff_right fun heq => ?_
  have hlast := congrArg List.getLast? heq
  rw [List.getLast?_concat] at hlast
  exact absurd hlast (by decide)

lemma framedLines_data_iff (es : List SseEvent) :
    (∀ line ∈ framedLines es, isData line = false) ↔ ∀ e ∈ es, ∀ line ∈ e.lines, isData line = false := by
  simp only [framedLines, List.forall_mem_flatMap, List.forall_mem_append, List.forall_mem_singleton]
  exact forall₂_congr fun _ _ => and_iff_left rfl

lemma sameEndings_of_not_data {es : List SseEvent} (h : ∀ e ∈ es, ∀ line ∈ e.lines, isData line = false) :
    SameEndings es := by
  have hlf : ∀ es' : List SseEvent, (∀ e ∈ es', ∀ line ∈ e.lines, isData line = false) →
      payloads (session [framed lf es']) = [] ∧ .done ∉ session [framed lf es'] := by
    intro es' h'
    have hlines : ∀ line ∈ framedLines es' ++ [[]], isData line = false :=
      List.forall_mem_append.2 ⟨(framedLines_data_iff es').2 h', List.forall_mem_singleton.2 rfl⟩
    obtain ⟨hpayloads, hopen⟩ := emitLines_of_not_data hlines
    rw [session_lines_lf]
    exact ⟨hpayloads, (closes_emitLines _).opened hopen⟩
  have hcrlf : payloads (session [framed crlf es]) = [] ∧ .done ∉ session [framed crlf es] := by
    have hlines : ∀ line ∈ (framedLines es).map (· ++ [0x0D]) ++ [[]], isData line = false := by
      refine List.forall_mem_append.2 ⟨List.forall_mem_map.2 fun line hmem => ?_, List.forall_mem_singleton.2 rfl⟩
      rw [isData_concat]
      exact (framedLines_data_iff es).2 h line hmem
    obtain ⟨hpayloads, hopen⟩ := emitLines_of_not_data hlines
    rw [session_lines_crlf]
    exact ⟨hpayloads, (closes_emitLines _).opened hopen⟩
  refine ⟨fun k => ?_, ?_, iff_of_false (hlf es h).2 hcrlf.2⟩
  · rw [← session_lf, (hlf _ fun e he => h e (List.mem_of_mem_take he)).1]
    exact List.nil_prefix
  · rw [(hlf es h).1, hcrlf.1]

/-- The line ends do not matter exactly for streams without a line of data: with newlines data are reported at once,
with carriage returns only at the end. -/
theorem sameEndings_iff (es : List SseEvent) :
    SameEndings es ↔ ∀ e ∈ es, ∀ line ∈ e.lines, isData line = false := by
  refine ⟨fun hsame => ?_, sameEndings_of_not_data⟩
  rw [← framedLines_data_iff]
  by_contra hdata
  push Not at hdata
  obtain ⟨line, hmem, hline⟩ := hdata
  -- with carriage returns the data comes at the end, and so with newlines, where that is before the end
  have hreturns : ∀ line ∈ (framedLines es).map (· ++ [0x0D]) ++ [[]], line = [] ∨ ∃ l, line = l ++ [0x0D] :=
    List.forall_mem_append.2
      ⟨List.forall_mem_map.2 fun l _ => Or.inr ⟨l, rfl⟩, List.forall_mem_singleton.2 (Or.inl rfl)⟩
  have hexists : ∃ line ∈ (framedLines es).map (· ++ [0x0D]) ++ [[]], isData line = true :=
    ⟨line ++ [0x0D], List.mem_append_left _ (List.mem_map_of_mem hmem), by
      rw [isData_concat]
      simpa using hline⟩
  have hlast := (emitLines_of_returns hreturns).2 hexists
  rw [← session_lines_crlf, ← hsame.payloads, session_lf] at hlast
  have hbegins := hsame.inTime es.length
  rw [List.take_length, feed_crlf] at hbegins
  exact hlast (List.prefix_nil.1 hbegins)

/-- One event with a payload and one with the sentinel. -/
def shortStream : List SseEvent :=
  [⟨[ascii "data: hi"], by decide, by decide⟩, ⟨[ascii "data: [DONE]"], by decide, by decide⟩]

/-- With newlines the payload and the sentinel are reported as they come; with carriage returns nothing is before the
end, and then two payloads. -/
theorem short_stream_returns :
    ¬SameEndings shortStream ∧
      (feed {} (framed lf (shortStream.take 1))).2 = [.data (ascii "hi")] ∧
      (feed {} (framed crlf shortStream)).2 = [] ∧
      session [framed lf shortStream] = [.data (ascii "hi"), .done] ∧
      session [framed crlf shortStream] = [.data (ascii "hi\r"), .data (ascii "[DONE]\r")] := by
  refine ⟨fun hsame => ?_, by decide, by decide, by decide, by decide⟩
  have hbegins := hsame.inTime 1
  revert hbegins
  decide

end SseParser

end Acva
