import Mathlib
import MeshControl.Scheduler.EventFeed

/-!
# Notices that come in pieces

A feed is one text, and its lines are the notices. The pieces in which it comes may be empty, hold
many lines, or end inside a line or a character. Reading takes from the pieces what stands in the
text, line by line, so that the results depend on the text alone, and each of them on one line.

## Main definitions

* `EventFeed.text` — what is still to be read.
* `EventFeed.ended`, `EventFeed.unended`, `EventFeed.lastLine` — the lines whose ends are there, and
  what stands after them.
* `EventFeed.Leaves` — reading some lines of a text leaves another text.
* `EventFeed.outcome` — the results of reading, one after another.
* `EventFeed.outcome_of_pieces` — the results for a text in pieces.
-/

namespace MeshControl.EventFeed

/-- What is still to be read. -/
def text (f : EventFeed) : List UInt8 := f.buffer ++ f.pieces.flatten

/-- The lines of a text that are not blank, and whose ends are there. -/
def ended (text : List UInt8) : List (List UInt8) := (split text).dropLast.filter (!·.all isBlank)

/-- What stands after the last end of a line. -/
def unended (text : List UInt8) : List UInt8 := (split text).getLastD []

/-- The line without an end, unless it is blank. -/
def lastLine (text : List UInt8) : List (List UInt8) := [unended text].filter (!·.all isBlank)

/-- The result of reading after so many others. -/
def outcome (f : EventFeed) : Nat → Outcome
  | 0 => f.next.1
  | n + 1 => f.next.2.outcome n

def Outcome.event? : Outcome → Option InstanceEvent
  | event e => some e
  | undecodable | interrupted | finished | waiting => none

/-! ## Lines of a text -/

variable {line rest text : List UInt8}

/-- The parts of a text are those between its ends of lines. -/
theorem split_eq_splitOn (text : List UInt8) : split text = text.splitOn newline := by
  induction text with
  | nil => rfl
  | cons b text ih =>
    have parts : (b :: text).splitOn newline =
        if (b == newline) = true then [] :: text.splitOn newline
        else (text.splitOn newline).modifyHead (b :: ·) :=
      List.splitOnP_cons_eq_if_modifyHead b text
    simp only [split, ih, parts, beq_iff_eq]
    split_ifs
    · rfl
    · cases rest : text.splitOn newline with
      | nil => exact absurd rest (List.splitOn_ne_nil _ _)
      | cons line lines => rfl

theorem split_ne_nil (text : List UInt8) : split text ≠ [] := by
  rw [split_eq_splitOn]
  exact List.splitOn_ne_nil _ _

theorem split_of_not_mem (h : newline ∉ text) : split text = [text] := by
  rw [split_eq_splitOn]
  refine List.splitOnP_eq_singleton fun b hb => ?_
  rw [beq_eq_false_iff_ne]
  exact ne_of_mem_of_not_mem hb h

theorem split_append_newline (text rest : List UInt8) :
    split (text ++ newline :: rest) = split text ++ split rest := by
  simp only [split_eq_splitOn]
  exact List.splitOnP_append_cons text rest (beq_self_eq_true newline)

theorem ended_of_not_mem (h : newline ∉ text) : ended text = [] := by
  rw [ended, split_of_not_mem h]
  rfl

theorem unended_of_not_mem (h : newline ∉ text) : unended text = text := by
  rw [unended, split_of_not_mem h]
  rfl

/-- A text has the lines whose ends are there, and then perhaps one without. -/
theorem segments_eq_append (text : List UInt8) : segments text = ended text ++ lastLine text := by
  have parts : split text = (split text).dropLast ++ [unended text] := by
    rw [unended, List.getLastD_eq_getLast?, List.getLast?_eq_some_getLast (split_ne_nil text),
      Option.getD_some, List.dropLast_concat_getLast]
  rw [segments, parts, List.filter_append, ← ended, ← lastLine]

/-- Every line that is not blank has a byte of the text. -/
theorem length_segments_le (text : List UInt8) : (segments text).length ≤ text.length := by
  have bytes : (split text).flatten.length ≤ text.length := by
    induction text with
    | nil => exact Nat.le_refl 0
    | cons b text ih =>
      rw [split]
      split_ifs
      · exact Nat.le_succ_of_le ih
      · cases parts : split text with
        | nil => exact absurd parts (split_ne_nil text)
        | cons line lines =>
          rw [parts] at ih
          simpa using ih
  have full : ∀ line ∈ segments text, 1 ≤ line.length := by
    intro line member
    cases line with
    | nil => simp [segments] at member
    | cons b line => simp
  calc (segments text).length
      = ((segments text).map List.length).length := by rw [List.length_map]
    _ ≤ ((segments text).map List.length).sum :=
        List.length_le_sum_of_one_le _ (List.forall_mem_map.mpr full)
    _ ≤ ((split text).map List.length).sum :=
        (List.filter_sublist.map _).sum_le_sum fun _ _ => Nat.zero_le _
    _ ≤ text.length := by rwa [← List.length_flatten]

/-! ## Lines that are taken -/

/-- Reading some lines of a text leaves another text. -/
structure Leaves (text : List UInt8) (lines : List (List UInt8)) (rest : List UInt8) : Prop where
  ended : EventFeed.ended text = lines ++ EventFeed.ended rest
  unended : EventFeed.unended text = EventFeed.unended rest

theorem Leaves.refl (text : List UInt8) : Leaves text [] text := ⟨rfl, rfl⟩

theorem Leaves.trans {lines lines' : List (List UInt8)} {rest' : List UInt8}
    (h : Leaves text lines rest) (h' : Leaves rest lines' rest') :
    Leaves text (lines ++ lines') rest' :=
  ⟨by rw [h.ended, h'.ended, List.append_assoc], h.unended.trans h'.unended⟩

/-- A line is taken unless it is blank. -/
theorem leaves_line (h : newline ∉ line) (rest : List UInt8) :
    Leaves (line ++ newline :: rest) (if line.all isBlank then [] else [line]) rest := by
  have parts : split (line ++ newline :: rest) = line :: split rest := by
    rw [split_append_newline, split_of_not_mem h, List.singleton_append]
  constructor
  · rw [ended, parts, List.dropLast_cons_of_ne_nil (split_ne_nil rest), List.filter_cons, ← ended]
    cases line.all isBlank <;> rfl
  · rw [unended, parts, unended, List.getLastD_eq_getLast?, List.getLastD_eq_getLast?,
      List.getLast?_cons, List.getLast?_eq_some_getLast (split_ne_nil rest)]
    rfl

/-- The first line is taken from what has come, whatever is still to come, and if there is none,
then because no end of a line has come. -/
theorem leaves_takeLine (lineSoFar : List UInt8) (h : newline ∉ lineSoFar)
    (bytes more : List UInt8) :
    Leaves (lineSoFar ++ bytes ++ more) (takeLine lineSoFar bytes).1.toList
        ((takeLine lineSoFar bytes).2 ++ more) ∧
      ((takeLine lineSoFar bytes).1 = none → newline ∉ (takeLine lineSoFar bytes).2) := by
  fun_induction takeLine lineSoFar bytes with
  | case1 lineSoFar => exact ⟨by simpa using Leaves.refl _, fun _ => h⟩
  | case2 lineSoFar rest blank ih =>
    obtain ⟨taken, left⟩ := ih List.not_mem_nil
    have skipped := leaves_line h (rest ++ more)
    rw [if_pos blank] at skipped
    exact ⟨by simpa using skipped.trans taken, left⟩
  | case3 lineSoFar rest full =>
    have taken := leaves_line h (rest ++ more)
    rw [if_neg full] at taken
    exact ⟨by simpa using taken, nofun⟩
  | case4 lineSoFar b rest other ih =>
    have open' : newline ∉ lineSoFar ++ [b] := by
      simpa [h] using Ne.symm other
    simpa using ih open'

/-- The next result is that of the first line whose end is in the pieces. If there is none, all
pieces are taken, and what stands after the last end of a line is left. -/
theorem nextOf_cases (ending : Ending) (buffer : List UInt8) (pieces : List (List UInt8)) :
    (∃ line f, nextOf ending buffer pieces = (.ofLine line, f) ∧ f.ending = ending ∧
      Leaves (buffer ++ pieces.flatten) [line] f.text) ∨
    (ended (buffer ++ pieces.flatten) = [] ∧
      nextOf ending buffer pieces = atEnd (unended (buffer ++ pieces.flatten)) ending) := by
  induction pieces generalizing buffer with
  | nil =>
    obtain ⟨taken, left⟩ := leaves_takeLine [] List.not_mem_nil buffer []
    rw [nextOf]
    split
    · rename_i line rest found
      rw [found] at taken
      exact .inl ⟨line, _, rfl, rfl, by simpa [text] using taken⟩
    · rename_i rest found
      rw [found] at taken left
      have last : newline ∉ rest := left rfl
      have none' : ended (buffer ++ [].flatten) = [] := by
        simpa [ended_of_not_mem last] using taken.ended
      have tail : unended (buffer ++ [].flatten) = rest := by
        simpa [unended_of_not_mem last] using taken.unended
      exact .inr ⟨none', by rw [tail]⟩
  | cons piece pieces ih =>
    obtain ⟨taken, -⟩ := leaves_takeLine [] List.not_mem_nil buffer (piece :: pieces).flatten
    rw [nextOf]
    split
    · rename_i line rest found
      rw [found] at taken
      exact .inl ⟨line, _, rfl, rfl, by simpa [text] using taken⟩
    · rename_i rest found
      rw [found] at taken
      have skipped : Leaves (buffer ++ (piece :: pieces).flatten) []
          (rest ++ piece ++ pieces.flatten) := by
        simpa using taken
      rw [skipped.ended, skipped.unended]
      obtain ⟨line, f, result, ending, taken⟩ | none' := ih (rest ++ piece)
      · exact .inl ⟨line, f, result, ending, skipped.trans taken⟩
      · exact .inr none'

/-! ## Results -/

variable {f : EventFeed} {lines : List (List UInt8)}

theorem isLast_ofLine (line : List UInt8) : (Outcome.ofLine line).isLast = false := by
  unfold Outcome.ofLine
  split <;> rfl

theorem event?_ofLine (line : List UInt8) : (Outcome.ofLine line).event? = decodeLine line := by
  unfold Outcome.ofLine
  split <;> simp_all [Outcome.event?]

theorem next_of_ended_eq_cons (h : ended f.text = line :: lines) :
    ∃ f', f.next = (.ofLine line, f') ∧ f'.ending = f.ending ∧ ended f'.text = lines ∧
      unended f'.text = unended f.text := by
  obtain ⟨line', f', result, ending, taken⟩ | ⟨none', -⟩ := nextOf_cases f.ending f.buffer f.pieces
  · obtain ⟨rfl, rfl⟩ := List.cons.inj (h.symm.trans taken.ended)
    exact ⟨f', result, ending, rfl, taken.unended.symm⟩
  · exact absurd (h.symm.trans none') (List.cons_ne_nil _ _)

theorem next_of_ended_eq_nil (h : ended f.text = []) :
    f.next = atEnd (unended f.text) f.ending := by
  obtain ⟨line, f', -, -, taken⟩ | ⟨-, result⟩ := nextOf_cases f.ending f.buffer f.pieces
  · exact absurd (h.symm.trans taken.ended) nofun
  · exact result

/-- Every line whose end is there has its result, and then a feed is left that has no such lines,
but ends as before. -/
theorem exists_drained (f : EventFeed) : ∃ f' : EventFeed, f'.ending = f.ending ∧
    ended f'.text = [] ∧ lastLine f'.text = lastLine f.text ∧
    (∀ n, f.outcome n =
      ((ended f.text).map .ofLine)[n]?.getD (f'.outcome (n - (ended f.text).length))) ∧
    ∀ n, readSome ((ended f.text).length + n) f =
      (ended f.text).map .ofLine ++ readSome n f' := by
  induction h : ended f.text generalizing f with
  | nil => exact ⟨f, rfl, h, rfl, fun n => rfl, fun n => by simp⟩
  | cons line lines ih =>
    obtain ⟨g, result, ending, rest, tail⟩ := next_of_ended_eq_cons h
    obtain ⟨f', ending', none', tail', outcomes, read⟩ := ih g rest
    have last : lastLine f'.text = lastLine f.text := by rw [tail', lastLine, tail, ← lastLine]
    refine ⟨f', ending'.trans ending, none', last, fun n => ?_, fun n => ?_⟩
    · cases n with
      | zero => simp [outcome, result]
      | succ n => simp [outcome, result, outcomes]
    · have more : (line :: lines).length + n = (lines.length + n) + 1 := by simp; omega
      rw [more, readSome, result]
      simp [isLast_ofLine, read]

/-! ## Ends -/

/-- Nothing is left to be read. -/
def closed : EventFeed := ⟨[], [], .complete⟩

theorem next_closed : closed.next = (.finished, closed) := rfl

theorem outcome_closed (n : Nat) : closed.outcome n = .finished := by
  induction n with
  | zero => rfl
  | succ n ih => rw [outcome, next_closed, ih]

theorem lastLine_cases (text : List UInt8) :
    lastLine text = [] ∨ lastLine text = [unended text] := by
  rw [lastLine, List.filter_singleton]
  cases (unended text).all isBlank
  · exact .inr rfl
  · exact .inl rfl

/-- When all has come, the line without an end is read, and then there is nothing left. -/
theorem next_of_complete (drained : ended f.text = []) (ending : f.ending = .complete) :
    f.next = (((lastLine f.text).map .ofLine).headD .finished, closed) := by
  rw [next_of_ended_eq_nil drained, ending, atEnd, lastLine, List.filter_singleton]
  cases (unended f.text).all isBlank <;> rfl

theorem outcome_of_complete (ending : f.ending = .complete) (n : Nat) :
    f.outcome n = ((segments f.text).map .ofLine)[n]?.getD .finished := by
  obtain ⟨f', ending', drained, tail, outcomes, -⟩ := exists_drained f
  have last : ∀ m, f'.outcome m = ((lastLine f.text).map .ofLine)[m]?.getD .finished := by
    intro m
    have next := next_of_complete drained (ending'.trans ending)
    rw [tail] at next
    have single : (lastLine f.text).length ≤ 1 := List.length_filter_le _ _
    cases m with
    | zero => rw [outcome, next, List.headD_eq_head?_getD, List.head?_eq_getElem?]
    | succ m =>
      rw [outcome, next, outcome_closed, List.getElem?_eq_none (by simp; omega), Option.getD_none]
  rw [outcomes, last, segments_eq_append, List.map_append, List.getElem?_append,
    List.length_map]
  split_ifs with h
  · rw [List.getElem?_eq_getElem (by simpa using h), Option.getD_some, Option.getD_some]
  · rw [List.getElem?_eq_none (by simpa using h), Option.getD_none]

theorem readSome_closed (n : Nat) : readSome (n + 1) closed = [.finished] := by
  rw [readSome, next_closed]
  rfl

/-- There are bytes enough for every result. -/
theorem readAll_eq (f : EventFeed) :
    ∃ n, (lastLine f.text).length < n ∧
      f.readAll = readSome ((ended f.text).length + n) f := by
  have bytes : f.text.length = f.buffer.length + f.pieces.flatten.length := List.length_append
  have enough := length_segments_le f.text
  rw [segments_eq_append, List.length_append] at enough
  refine ⟨f.text.length + 1 - (ended f.text).length, by omega, ?_⟩
  rw [readAll, ← bytes]
  congr 1
  omega

theorem readAll_of_complete (ending : f.ending = .complete) :
    f.readAll = (segments f.text).map .ofLine ++ [.finished] := by
  obtain ⟨f', ending', drained, tail, -, read⟩ := exists_drained f
  obtain ⟨n, more, all⟩ := readAll_eq f
  have next := next_of_complete drained (ending'.trans ending)
  rw [tail] at next
  have last : readSome n f' = (lastLine f.text).map .ofLine ++ [.finished] := by
    obtain ⟨n, rfl⟩ := Nat.exists_eq_add_of_lt more
    obtain lines | lines := lastLine_cases f.text
    · rw [readSome, next, lines]
      rfl
    · rw [readSome, next, lines, List.length_singleton, Nat.add_comm 1 n]
      simp [isLast_ofLine, readSome_closed]
  rw [all, read, last, segments_eq_append, List.map_append, List.append_assoc]

theorem readAll_of_broken (ending : f.ending = .broken) :
    f.readAll = (ended f.text).map .ofLine ++ [.interrupted] := by
  obtain ⟨f', ending', drained, -, -, read⟩ := exists_drained f
  obtain ⟨n, more, all⟩ := readAll_eq f
  obtain ⟨n, rfl⟩ := Nat.exists_eq_add_of_lt more
  have next := next_of_ended_eq_nil drained
  rw [ending', ending, atEnd] at next
  rw [all, read, readSome, next]
  rfl

/-- Whatever the pieces are that a text comes in, the results of reading are those of its lines that
are not blank, with the last one even if its end is missing, and after them that the feed is
finished, for ever. So the notices that are read are those that lines decode to. If the connection
breaks, the results before that are those of the lines whose ends have come. -/
theorem outcome_of_pieces (pieces : List (List UInt8)) :
    let parts := pieces.flatten.splitOn newline
    let lines := parts.filter fun line => line.any (!isBlank ·)
    let feed (ending : Ending) : EventFeed := ⟨[], pieces, ending⟩
    (∀ n, (feed .complete).outcome n = (lines.map .ofLine)[n]?.getD .finished) ∧
    (feed .complete).readAll = lines.map .ofLine ++ [.finished] ∧
    (feed .complete).readAll.filterMap (·.event?) = lines.filterMap decodeLine ∧
    (feed .broken).readAll =
      (parts.dropLast.filter fun line => line.any (!isBlank ·)).map .ofLine ++ [.interrupted] := by
  intro parts lines feed
  have filled : (fun line : List UInt8 => !line.all isBlank) =
      fun line => line.any (!isBlank ·) := by
    funext line
    rw [List.not_all_eq_any_not]
  have segments_eq : segments pieces.flatten = lines := by
    rw [segments, split_eq_splitOn, filled]
  have ended_eq : ended pieces.flatten =
      parts.dropLast.filter fun line => line.any (!isBlank ·) := by
    rw [ended, split_eq_splitOn, filled]
  have text_eq : ∀ ending, (feed ending).text = pieces.flatten := fun _ => rfl
  have complete : (feed .complete).readAll = lines.map .ofLine ++ [.finished] := by
    rw [readAll_of_complete rfl, text_eq, segments_eq]
  refine ⟨fun n => ?_, complete, ?_, ?_⟩
  · rw [outcome_of_complete rfl, text_eq, segments_eq]
  · have decoded : (fun line => (Outcome.ofLine line).event?) = decodeLine := funext event?_ofLine
    rw [complete, List.filterMap_append, List.filterMap_map, Function.comp_def, decoded]
    exact List.append_nil _
  · rw [readAll_of_broken rfl, text_eq, ended_eq]

/-- The pieces end inside the end of a line and inside a character. Two lines are left, one of which
has no end. -/
example : (⟨[], [[0x78, 0x0D], [], [0x0A, 0x20, 0x0A, 0xC3], [0xA9]], .complete⟩ :
    EventFeed).readAll = [.undecodable, .undecodable, .finished] := by decide +kernel

end MeshControl.EventFeed
