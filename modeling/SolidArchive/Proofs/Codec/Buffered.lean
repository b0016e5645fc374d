import SolidArchive.Proofs.Codec.Unrolling
import SolidArchive.Proofs.Codec.Windows

/-!
# Stream decoders as libraries

A stream decoder makes a library: on its first call it decodes the input that it is shown, all at
once, and from then on it hands out what it has, window by window (`StreamDecoder.buffered`). It is
asked for nothing that it could not give, so how it is asked does not matter
(`StreamDecoder.buffered_cutFree`).

The loop around such a library ends with what the decoder gives when it is run directly
(`StreamDecoder.ends_buffered_iff`), if the input is shown at once. That is what the loop is for.
-/

namespace SolidArchive.Codec

open Library

variable {σ ε : Type}

/-! ### Handing out -/

/-- What a call reports that has room for all there is, and perhaps for `more`. Whether it `reports`
that the input has run out depends on the library. -/
def Ending.report (reports more : Bool) (ending : Ending ε) : Status ε :=
  match ending, ending.fault? more with
  | .finish, _ => .streamEnd
  | _, none => .ok
  | _, some .truncated => if reports then .halted .truncated else .ok
  | _, some (.corrupt fault) => .halted (.corrupt fault)

theorem Ending.finish_of_report {reports more : Bool} {ending : Ending ε}
    (h : ending.report reports more = .streamEnd) : ending = .finish := by
  cases ending with
  | finish => rfl
  | truncated => cases reports <;> cases more <;> cases h
  | corrupt fault waits => cases more <;> cases waits <;> cases h

/-- What is reported shows, also with more room. -/
theorem Ending.fault?_of_report {reports more more' : Bool} {ending : Ending ε} {why : Halt ε}
    (h : ending.report reports more = .halted why) (hmore : more → more') :
    ending.fault? more' = some why := by
  cases ending with
  | finish => cases h
  | truncated =>
    cases more with
    | false => cases h
    | true =>
      rw [hmore rfl]
      cases reports with
      | false => cases h
      | true => exact congrArg some (Status.halted.inj h)
  | corrupt fault waits => cases more <;> cases more' <;> cases waits <;> simp_all [report, fault?]

/-- What is not reported does not show, as long as there is no more room. -/
theorem Ending.fault?_of_report_ok {reports : Bool} {ending : Ending ε}
    (h : ending.report reports false = .ok) : ending.fault? false = none := by
  cases ending with
  | finish => rfl
  | truncated => rfl
  | corrupt fault waits =>
    cases waits with
    | false => cases h
    | true => rfl

namespace Unrolled

/-- What is left behind some bytes. -/
def drop (count : ℕ) (u : Unrolled ε) : Unrolled ε := { u with bytes := u.bytes.drop count }

@[simp] theorem drop_nil (count : ℕ) (ending : Ending ε) :
    drop count ⟨[], ending⟩ = ⟨[], ending⟩ := by
  simp [drop]

/-- To hand out something is to have less. -/
theorem length_drop_lt {u : Unrolled ε} {count : ℕ} (hcount : 0 < count)
    (h : u.bytes.take count ≠ []) : (u.drop count).bytes.length < u.bytes.length := by
  have hsome : u.bytes ≠ [] := fun hempty => h (by rw [hempty, List.take_nil])
  have hlength := List.length_pos_iff.mpr hsome
  rw [drop, List.length_drop]
  omega

/-- Hands out as much as there is room for. -/
def handOut (reports : Bool) (u : Unrolled ε) (window : ℕ) : Answer (Unrolled ε) ε where
  state := u.drop window
  bytes := u.bytes.take window
  status :=
    if window < u.bytes.length then .ok
    else u.ending.report reports (u.bytes.length < window)

/-- What is still wanted of what there is. -/
def wanted (u : Unrolled ε) (produced : ℕ) (expected : Option ℕ) : Except (Halt ε) Bytes :=
  if Finished produced expected then .ok [] else u.upTo (expected.map (· - produced))

variable {u : Unrolled ε} {reports : Bool} {window : ℕ}

theorem status_handOut_of_lt (h : window < u.bytes.length) :
    (u.handOut reports window).status = .ok := if_pos h

theorem status_handOut_of_le (h : u.bytes.length ≤ window) :
    (u.handOut reports window).status = u.ending.report reports (u.bytes.length < window) :=
  if_neg (Nat.not_lt.mpr h)

theorem length_le_of_handOut (h : (u.handOut reports window).status ≠ .ok) :
    u.bytes.length ≤ window := by
  by_contra hless
  exact h (status_handOut_of_lt (Nat.not_le.mp hless))

theorem finish_of_handOut (h : (u.handOut reports window).status = .streamEnd) :
    u.ending = .finish := by
  rw [status_handOut_of_le (length_le_of_handOut (h.trans_ne nofun))] at h
  exact Ending.finish_of_report h

section Wanted

variable {produced : ℕ} {expected : Option ℕ} {why : Halt ε}
  (hmore : ¬Finished produced expected)

include hmore in
theorem wanted_eq_upTo : u.wanted produced expected = u.upTo (expected.map (· - produced)) :=
  if_neg hmore

include hmore in
theorem wanted_of_streamEnd
    (h : (u.handOut reports (nextWindow produced expected)).status = .streamEnd) :
    u.wanted produced expected = .ok (u.bytes.take (nextWindow produced expected)) := by
  have hfinish := finish_of_handOut h
  have hroom : u.bytes.length ≤ nextWindow produced expected :=
    length_le_of_handOut (h.trans_ne nofun)
  rw [wanted_eq_upTo hmore, List.take_of_length_le hroom]
  cases expected with
  | none => exact all_of_finish hfinish true
  | some n =>
    have hle : u.bytes.length ≤ n - produced := hroom.trans (min_le_right _ _)
    rw [Option.map_some, upTo_of_finish hfinish, List.take_of_length_le hle]

include hmore in
theorem wanted_of_halted
    (h : (u.handOut reports (nextWindow produced expected)).status = .halted why) :
    u.wanted produced expected = .error why := by
  have hroom : u.bytes.length ≤ nextWindow produced expected :=
    length_le_of_handOut (h.trans_ne nofun)
  rw [status_handOut_of_le hroom] at h
  -- a fault that is reported is the end, whether more is wanted or not
  have hall : ∀ more : Bool, (u.bytes.length < nextWindow produced expected → more) →
      u.all more = .error why := by
    intro more hmore
    rw [all, Ending.fault?_of_report h (by simpa using hmore)]
  rw [wanted_eq_upTo hmore]
  cases expected with
  | none => exact hall true fun _ => rfl
  | some n =>
    have hle : nextWindow produced (some n) ≤ n - produced := min_le_right _ _
    rw [Option.map_some, upTo, if_neg (by omega)]
    exact hall _ fun hlt => decide_eq_true (hlt.trans_le hle)

/-- After a call that filled its window, nothing is wrong yet. -/
theorem upTo_drop_zero (h : (u.handOut reports window).status = .ok)
    (hroom : window ≤ u.bytes.length) : (u.drop window).upTo (some 0) = .ok [] := by
  have hlength : (u.drop window).bytes.length = u.bytes.length - window := List.length_drop
  rcases hroom.lt_or_eq with hlt | heq
  · rw [upTo, if_pos (by omega), List.take_zero]
  · rw [status_handOut_of_le heq.ge, decide_eq_false (by omega)] at h
    have hfault : (u.drop window).ending.fault? false = none := Ending.fault?_of_report_ok h
    have hempty : (u.drop window).bytes = [] := List.eq_nil_of_length_eq_zero (by omega)
    rw [upTo, if_neg (by omega), hlength, decide_eq_false (by omega), all, hfault, hempty]

include hmore in
/-- A call that goes well hands out the beginning of what is wanted. -/
theorem wanted_of_ok (h : (u.handOut reports (nextWindow produced expected)).status = .ok) :
    u.wanted produced expected =
      ((u.drop (nextWindow produced expected)).wanted
        (produced + (u.bytes.take (nextWindow produced expected)).length) expected).map
          (u.bytes.take (nextWindow produced expected) ++ ·) := by
  have hsplit : (u.drop (nextWindow produced expected)).after
      (u.bytes.take (nextWindow produced expected)) = u := by
    obtain ⟨bytes, ending⟩ := u
    exact congrArg (Unrolled.mk · ending) (List.take_append_drop _ bytes)
  rw [wanted_eq_upTo hmore]
  cases expected with
  | none =>
    conv_lhs => rw [← hsplit]
    exact upTo_after_none _
  | some n =>
    have hle : nextWindow produced (some n) ≤ n - produced := min_le_right _ _
    have hlength := List.length_take_le (nextWindow produced (some n)) u.bytes
    conv_lhs => rw [← hsplit]
    rw [Option.map_some, upTo_after_of_le (hlength.trans hle)]
    congr 1
    unfold wanted
    split
    · next hfinished =>
      -- the window was filled, and it was all that was wanted
      have hwanted : n ≤ produced + (u.bytes.take (nextWindow produced (some n))).length :=
        hfinished
      rw [List.length_take] at hwanted ⊢
      rw [show n - produced - min (nextWindow produced (some n)) u.bytes.length = 0 by omega]
      exact upTo_drop_zero h (by omega)
    · rw [Option.map_some, Nat.sub_add_eq]

include hmore in
theorem wanted_truncated :
    (⟨[], .truncated⟩ : Unrolled ε).wanted produced expected = .error .truncated := by
  rw [wanted_eq_upTo hmore]
  cases expected with
  | none => rfl
  | some n =>
    have hlt : 0 < n - produced := Nat.sub_pos_of_lt (Nat.not_le.mp hmore)
    simp [upTo, all, Ending.fault?, hlt]

end Wanted

end Unrolled

/-- A library that decodes all of its input at once and then hands out what it has. -/
def StreamDecoder.buffered (d : StreamDecoder σ ε) (reports : Bool) (start : Bytes → σ) :
    Library ε where
  State := Option (Unrolled ε)
  start := none
  call state shown window :=
    let answer := (state.getD (d.unroll (start shown))).handOut reports window
    ({ answer with state := some answer.state }, shown.length)

namespace StreamDecoder

variable {d : StreamDecoder σ ε} {reports : Bool} {start : Bytes → σ} {u : Unrolled ε}

/-- A stream has still to be given the bytes of `u`. -/
def Holds (s : (d.buffered reports start).Stream) (u : Unrolled ε) : Prop :=
  Option.getD s.fed.state (d.unroll (start s.fed.shown)) = u

variable {s : (d.buffered reports start).Stream} {window : ℕ} {windows windows' : List ℕ}

theorem Holds.bytes (h : Holds s u) (window : ℕ) :
    (s.send window).bytes = u.bytes.take window := by
  subst h
  rfl

theorem Holds.status (h : Holds s u) (window : ℕ) :
    (s.send window).status = (u.handOut reports window).status := by
  subst h
  rfl

/-- What is shown is taken at once. -/
theorem shown_send : (s.send window).state.shown = [] :=
  List.drop_length

theorem hidden_send : (s.send window).state.hidden = s.fed.hidden := rfl

theorem Holds.send (h : Holds s u) (window : ℕ) : Holds (s.send window).state (u.drop window) := by
  have hstate : (s.send window).state.state = some (u.drop window) := by
    subst h
    rfl
  unfold Holds Stream.fed
  split <;> rw [hstate] <;> rfl

theorem hidden_fed_send (h : s.fed.hidden = []) : (s.send window).state.fed.hidden = [] := by
  rw [Stream.fed, if_pos shown_send, hidden_send, h, List.drop_nil]

/-! ### How the output is cut does not matter -/

theorem Holds.talk_prefix (h : Holds s u) (windows : List ℕ) : (s.talk windows).1 <+: u.bytes := by
  induction windows generalizing s u with
  | nil => exact List.nil_prefix
  | cons window windows ih =>
    by_cases hok : (s.send window).status = .ok
    · rw [Stream.talk_cons_of_ok hok, h.bytes]
      have hrest := (List.prefix_append_right_inj (u.bytes.take window)).mpr (ih (h.send window))
      rwa [Unrolled.drop, List.take_append_drop] at hrest
    · rw [Stream.talk_cons_of_ne hok, h.bytes]
      exact List.take_prefix window u.bytes

/-- The end of the stream is reached only if nothing is wrong. -/
theorem Holds.finish_of_talk (h : Holds s u) (hend : (s.talk windows).2 = .streamEnd) :
    u.ending = .finish := by
  induction windows generalizing s u with
  | nil => cases hend
  | cons window windows ih =>
    by_cases hok : (s.send window).status = .ok
    · rw [Stream.talk_cons_of_ok hok] at hend
      have hrest : (u.drop window).ending = .finish := ih (h.send window) hend
      exact hrest
    · rw [Stream.talk_cons_of_ne hok, h.status] at hend
      exact Unrolled.finish_of_handOut hend

/-- If nothing is wrong, the end of the stream is reached when there has been room for all of it. -/
theorem Holds.talk_of_finish (h : Holds s u) (hfinish : u.ending = .finish) (windows : List ℕ) :
    s.talk windows = (u.bytes, .streamEnd) ∨
      (s.talk windows).2 = .ok ∧ windows.sum ≤ u.bytes.length := by
  -- window by window, until one has room for all that is left
  induction windows generalizing s u with
  | nil => exact .inr ⟨rfl, Nat.zero_le _⟩
  | cons window windows ih =>
    have hstatus := h.status window
    by_cases hroom : window < u.bytes.length
    · rw [Unrolled.status_handOut_of_lt hroom] at hstatus
      have hlength : (u.drop window).bytes.length = u.bytes.length - window := List.length_drop
      rw [Stream.talk_cons_of_ok hstatus, h.bytes, List.sum_cons]
      apply (ih (h.send window) hfinish).imp
      · intro hrest
        rw [hrest]
        exact congrArg (·, Status.streamEnd) (List.take_append_drop window u.bytes)
      · rintro ⟨hok, hsum⟩
        exact ⟨hok, by omega⟩
    · have hall : u.bytes.take window = u.bytes := List.take_of_length_le (Nat.not_lt.mp hroom)
      rw [Unrolled.status_handOut_of_le (Nat.not_lt.mp hroom), hfinish] at hstatus
      have hend : (s.send window).status = .streamEnd := hstatus
      rw [Stream.talk_cons_of_ne (by simp [hend]), h.bytes, hall, hend]
      exact .inl rfl

/-- Windows that ask for room ask for at least a byte each. -/
theorem length_le_sum (h : Positive windows) : windows.length ≤ windows.sum := by
  induction windows with
  | nil => exact Nat.zero_le _
  | cons window windows ih =>
    obtain ⟨hwindow, hrest⟩ := List.forall_mem_cons.mp h
    rw [List.length_cons, List.sum_cons]
    have hle := ih hrest
    omega

/-- **A stream decoder is a library for which windows do not matter**, however it is shown its
input. -/
theorem buffered_cutFree (d : StreamDecoder σ ε) (reports : Bool) (start : Bytes → σ)
    (begin : Bytes → (d.buffered reports start).Stream) :
    (d.buffered reports start).CutFree begin where
  fits _ _ window := List.length_take_le window _
  comparable input _ _ _ _ := by
    obtain ⟨u, hholds⟩ : ∃ u, Holds (begin input) u := ⟨_, rfl⟩
    exact List.prefix_or_prefix_of_prefix (hholds.talk_prefix _) (hholds.talk_prefix _)
  ends input windows _ hend more hmore := by
    obtain ⟨u, hholds⟩ : ∃ u, Holds (begin input) u := ⟨_, rfl⟩
    have hfinish := hholds.finish_of_talk hend
    have hall : (begin input).talk windows = (u.bytes, .streamEnd) := by
      apply (hholds.talk_of_finish hfinish windows).resolve_right
      rintro ⟨hok, -⟩
      cases hok.symm.trans hend
    refine ⟨u.bytes.length + 1, ?_⟩
    rw [hall]
    -- with so many windows there has been room for all of it
    apply (hholds.talk_of_finish hfinish _).resolve_right
    rintro ⟨-, hsum⟩
    have hpositive : Positive ((List.range (u.bytes.length + 1)).map more) := by
      intro window hmem
      obtain ⟨i, -, rfl⟩ := List.mem_map.mp hmem
      exact hmore i
    have hlength := (length_le_sum hpositive).trans hsum
    rw [List.length_map, List.length_range] at hlength
    omega

/-- When a call that has room and more stores nothing and reports that all is well. -/
theorem ending_of_stalled (hwindow : 0 < window) (hok : (u.handOut reports window).status = .ok)
    (hnothing : u.bytes.take window = []) :
    u.bytes = [] ∧ u.ending = .truncated ∧ reports = false := by
  have hempty : u.bytes = [] := (List.take_eq_nil_iff.mp hnothing).resolve_left hwindow.ne'
  have hlength : u.bytes.length < window := by rwa [hempty]
  rw [Unrolled.status_handOut_of_le hlength.le, decide_eq_true hlength] at hok
  refine ⟨hempty, ?_⟩
  -- an end without bytes that is not reported has broken off
  cases hending : u.ending with
  | finish =>
    rw [hending] at hok
    cases hok
  | truncated =>
    rw [hending] at hok
    cases reports with
    | false => exact ⟨rfl, rfl⟩
    | true => cases hok
  | corrupt fault waits =>
    rw [hending] at hok
    simp [Ending.report, Ending.fault?] at hok

/-- A library that has run out of input and does not report it. -/
theorem Holds.talk_of_stalled {s : (d.buffered false start).Stream} (h : Holds s ⟨[], .truncated⟩)
    (windows : List ℕ) : (s.talk windows).2 = .ok := by
  induction windows generalizing s with
  | nil => rfl
  | cons window windows ih =>
    have hok : (s.send window).status = .ok := by
      rw [h.status, Unrolled.status_handOut_of_le (Nat.zero_le _)]
      cases decide (List.length (⟨[], .truncated⟩ : Unrolled ε).bytes < window) <;> rfl
    rw [Stream.talk_cons_of_ok hok]
    exact ih (Unrolled.drop_nil window Ending.truncated ▸ h.send window)

theorem buffered_stalls (d : StreamDecoder σ ε) (reports : Bool) (start : Bytes → σ) :
    (d.buffered reports start).Stalls := by
  intro s window hwindow hok hnothing _ windows _
  obtain ⟨⟨bytes, ending⟩, hholds⟩ : ∃ u, Holds s u := ⟨_, rfl⟩
  rw [hholds.status] at hok
  rw [hholds.bytes] at hnothing
  obtain ⟨rfl, rfl, rfl⟩ := ending_of_stalled hwindow hok hnothing
  have hleft : Holds (s.send window).state ⟨[], .truncated⟩ :=
    Unrolled.drop_nil window Ending.truncated ▸ hholds.send window
  exact hleft.talk_of_stalled windows

/-! ### The loop -/

/-- The loop ends with what is still wanted. If the library does not report that its input has run
out, the loop has to look after that. -/
theorem Holds.ends (h : Holds s u) {guarded : Bool} (hguard : reports ∨ guarded)
    (expected : Option ℕ) (hhidden : s.fed.hidden = []) (out : Bytes) :
    Ends guarded expected s out ((u.wanted out.length expected).map (out ++ ·)) := by
  -- on what is left to hand out: a call that is not the last one hands out something
  induction hlength : u.bytes.length using Nat.strongRecOn generalizing s u out with
  | ind length ih =>
    subst hlength
    by_cases hfinished : Finished out.length expected
    · apply Ends.last
      rw [Unrolled.wanted, if_pos hfinished]
      exact turn_eq_ok_iff.mpr (.inl ⟨hfinished, List.append_nil out⟩)
    · have hstatus := h.status (nextWindow out.length expected)
      have hbytes := h.bytes (nextWindow out.length expected)
      have hwindow := nextWindow_pos hfinished
      cases hanswer : (s.send (nextWindow out.length expected)).status with
      | streamEnd =>
        rw [Unrolled.wanted_of_streamEnd hfinished (hstatus.symm.trans hanswer), ← hbytes]
        exact .last (turn_eq_ok_iff.mpr (.inr ⟨hfinished, hanswer, rfl⟩))
      | halted why =>
        rw [Unrolled.wanted_of_halted hfinished (hstatus.symm.trans hanswer)]
        exact .last (turn_eq_error_iff.mpr ⟨hfinished, .inl hanswer⟩)
      | ok =>
        have hok := hstatus.symm.trans hanswer
        have hnext := h.send (nextWindow out.length expected)
        by_cases hnothing : u.bytes.take (nextWindow out.length expected) = []
        · -- only the loop can tell that the input has run out
          obtain ⟨hempty, htruncated, hsilent⟩ := ending_of_stalled hwindow hok hnothing
          have hu : u = ⟨[], .truncated⟩ := by
            rw [← hempty, ← htruncated]
          rw [hu, Unrolled.wanted_truncated hfinished]
          apply Ends.last
          refine turn_eq_error_iff.mpr ⟨hfinished, .inr ⟨hanswer, ⟨?_, ?_, ?_⟩, rfl⟩⟩
          · exact hguard.resolve_left (by rw [hsilent]; exact Bool.false_ne_true)
          · rw [hbytes, hnothing]
          · exact ⟨shown_send, hidden_send.trans hhidden⟩
        · rw [Unrolled.wanted_of_ok hfinished hok, ← map_append_append, ← hbytes]
          have hrest := ih _ (Unrolled.length_drop_lt hwindow hnothing) hnext
            (hidden_fed_send hhidden) (out ++ (s.send (nextWindow out.length expected)).bytes) rfl
          rw [List.length_append] at hrest
          have hmoves : ¬(guarded ∧ (s.send (nextWindow out.length expected)).bytes = [] ∧
              (s.send (nextWindow out.length expected)).state.Exhausted) := by
            rintro ⟨-, hstored, -⟩
            exact hnothing (hbytes.symm.trans hstored)
          exact .more (turn_eq_more_iff.mpr ⟨hfinished, hanswer, hmoves, rfl, rfl⟩) hrest

/-- What is wanted at first is what is decoded. -/
theorem decode_eq_wanted (d : StreamDecoder σ ε) (start : σ) (expected : Option ℕ) :
    d.decode start expected = (d.unroll start).wanted 0 expected := by
  rw [decode_eq, Unrolled.wanted]
  cases expected with
  | none => rfl
  | some n =>
    have hzero : Finished 0 (some n) ↔ some n = some 0 := by
      rw [Option.some.injEq]
      exact Nat.le_zero
    simp only [hzero, Option.map_some, Nat.sub_zero]

/-- **The loop around a stream decoder** that is shown all of its input ends with what the decoder
gives when it is run directly. -/
theorem ends_buffered_iff {guarded : Bool} {expected : Option ℕ} {result : Except (Halt ε) Bytes}
    (hguard : reports ∨ guarded) {input : Bytes} (hfed : s.fed = ⟨none, input, []⟩) :
    Ends guarded expected s [] result ↔ d.decode (start input) expected = result := by
  have hholds : Holds s (d.unroll (start input)) := by
    unfold Holds
    rw [hfed]
    rfl
  have hends := hholds.ends hguard expected (by rw [hfed]) []
  have hdecode : ((d.unroll (start input)).wanted 0 expected).map ([] ++ ·) =
      d.decode (start input) expected := by
    rw [decode_eq_wanted]
    cases (d.unroll (start input)).wanted 0 expected <;> rfl
  rw [List.length_nil, hdecode] at hends
  exact ⟨hends.unique, fun hresult => hresult ▸ hends⟩

/-- A stream that is shown at once. -/
theorem fed_whole (L : Library ε) (input : Bytes) :
    (Stream.whole L input).fed = ⟨L.start, input, []⟩ := by
  unfold Stream.fed
  split
  · next hempty =>
    have hinput : input = [] := hempty
    rw [hinput]
    rfl
  · rfl

/-- A short stream is shown at once in any case. -/
theorem fed_inPieces (L : Library ε) {input : Bytes} (h : input.length ≤ maxInput) :
    (Stream.inPieces L input).fed = ⟨L.start, input, []⟩ := by
  have hfed : (Stream.inPieces L input).fed =
      ⟨L.start, input.take maxInput, input.drop maxInput⟩ := if_pos rfl
  rw [hfed, List.take_of_length_le h, List.drop_of_length_le h]

/-- What is decoded up to a size is a prefix of all there is. -/
theorem eq_take_of_decode {start : σ} {n : ℕ} {o : Bytes} (h : d.decode start (some n) = .ok o) :
    o = (d.unroll start).bytes.take n := by
  rw [decode_eq] at h
  split at h
  · next hzero =>
    obtain rfl := Option.some.inj hzero
    exact (Except.ok.inj h).symm
  · exact Unrolled.eq_take_of_upTo h

/-- **A declared size selects a prefix** of what a stream decoder gives. -/
theorem selectsPrefix (d : StreamDecoder σ ε) (start : σ) :
    SelectsPrefix fun expected result => d.decode start expected = result where
  take {o} h n := by
    rw [decode_eq, if_neg (Option.some_ne_none 0).symm] at h
    have hfinish := Unrolled.finish_of_upTo_none h
    obtain rfl := Unrolled.eq_bytes_of_all h
    -- what has ended well can be cut anywhere
    rw [decode_eq, Unrolled.upTo_of_finish hfinish]
    split
    · next hzero => rw [Option.some.inj hzero, List.take_zero]
    · rfl
  length_le {n o} h := by
    rw [eq_take_of_decode h]
    exact List.length_take_le n _
  agree {n n' o o'} h h' i hi hi' := by
    rw [eq_take_of_decode h, List.length_take] at hi
    rw [eq_take_of_decode h', List.length_take] at hi'
    rw [eq_take_of_decode h, eq_take_of_decode h', List.getElem?_take_of_lt (by omega),
      List.getElem?_take_of_lt (by omega)]

end StreamDecoder

end SolidArchive.Codec
