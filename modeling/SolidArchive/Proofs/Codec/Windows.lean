import Mathlib
import SolidArchive.Codec.Library

/-!
# Windows do not matter

A stream decoder may be asked for its output in windows of any sizes. That this makes no difference
to what it stores, nor to whether it gets to the end of its stream, is what is asked of a library
here (`Library.CutFree`). It follows for the loop around the library that a declared size selects a
prefix of the output (`CutFree.selectsPrefix`).

The loop is a conversation of a particular kind: its windows depend on what was stored. So a result
of the loop is one of a conversation (`Ends.exists_talk`), and back again the windows of the loop
are continued beyond its end, where that size is reached, to a sequence that never stops
(`Stream.windows`). The library gets to the end of the stream on this sequence as it does on any,
and the loop has ended by then (`Ends.of_talk`).
-/

namespace SolidArchive.Codec

variable {ε : Type}

/-- What the results of a decoder have to do with each other, by the size that was declared. With a
declared size there is a prefix of what there is without one, and in any case no more than that
size; and what there is for two declared sizes agrees as far as both go. -/
structure SelectsPrefix {φ : Type} (decodes : Option ℕ → Except φ Bytes → Prop) : Prop where
  take {o : Bytes} (h : decodes none (.ok o)) (n : ℕ) : decodes (some n) (.ok (o.take n))
  length_le {n : ℕ} {o : Bytes} (h : decodes (some n) (.ok o)) : o.length ≤ n
  agree {n n' : ℕ} {o o' : Bytes} (h : decodes (some n) (.ok o)) (h' : decodes (some n') (.ok o'))
    (i : ℕ) (hi : i < o.length) (hi' : i < o'.length) : o[i]? = o'[i]?

namespace Library

variable {L : Library ε} {s s' : L.Stream} {out out' bytes : Bytes} {expected : Option ℕ}
  {guarded : Bool} {result result' : Except (Halt ε) Bytes}

/-! ### Conversations -/

/-- Calls a library with one window after another for as long as it reports that all is well. Gives
what was stored and what was reported last. -/
def Stream.talk (s : L.Stream) : (windows : List ℕ) → Bytes × Status ε
  | [] => ([], .ok)
  | window :: windows =>
    let answer := s.send window
    match answer.status with
    | .ok =>
      let (rest, status) := answer.state.talk windows
      (answer.bytes ++ rest, status)
    | status => (answer.bytes, status)

theorem Stream.talk_cons_of_ok {window : ℕ} (h : (s.send window).status = .ok) (windows : List ℕ) :
    s.talk (window :: windows) =
      ((s.send window).bytes ++ ((s.send window).state.talk windows).1,
        ((s.send window).state.talk windows).2) := by
  rw [talk, h]

theorem Stream.talk_cons_of_ne {window : ℕ} (h : (s.send window).status ≠ .ok)
    (windows : List ℕ) :
    s.talk (window :: windows) = ((s.send window).bytes, (s.send window).status) := by
  rw [talk]
  cases hstatus : (s.send window).status with
  | ok => exact absurd hstatus h
  | streamEnd => rfl
  | halted why => rfl

/-! ### What is asked of a library -/

/-- Room is asked for in every call. -/
def Positive (windows : List ℕ) : Prop := ∀ window ∈ windows, 0 < window

/-- No call stores more than there is room for. -/
def Fits (L : Library ε) : Prop :=
  ∀ state shown window, (L.call state shown window).1.bytes.length ≤ window

/-- A library that had room, stored nothing and has no input left goes on reporting that all is
well. -/
def Stalls (L : Library ε) : Prop :=
  ∀ (s : L.Stream) window, 0 < window → (s.send window).status = .ok → (s.send window).bytes = [] →
    (s.send window).state.Exhausted →
      ∀ windows, Positive windows → ((s.send window).state.talk windows).2 = .ok

/-- **How the output is cut into windows does not matter.** Whatever the windows are, the bytes that
are stored are the same as far as they go, and if the end of the stream is reached with some windows
then it is with any, with the same bytes. -/
structure CutFree (L : Library ε) (start : Bytes → L.Stream) : Prop where
  fits : L.Fits
  comparable (input : Bytes) {windows windows' : List ℕ} (h : Positive windows)
    (h' : Positive windows') :
    ((start input).talk windows).1 <+: ((start input).talk windows').1 ∨
      ((start input).talk windows').1 <+: ((start input).talk windows).1
  ends (input : Bytes) {windows : List ℕ} (h : Positive windows)
    (hend : ((start input).talk windows).2 = .streamEnd) (more : ℕ → ℕ) (hmore : ∀ i, 0 < more i) :
    ∃ calls, (start input).talk ((List.range calls).map more) = (start input).talk windows

/-! ### The loop -/

/-- When a turn ends the loop well. -/
theorem turn_eq_ok_iff {o : Bytes} : turn guarded expected s out = .inr (.ok o) ↔
    (Finished out.length expected ∧ o = out) ∨
      (¬Finished out.length expected ∧
        (s.send (nextWindow out.length expected)).status = .streamEnd ∧
        o = out ++ (s.send (nextWindow out.length expected)).bytes) := by
  unfold turn
  -- nothing more is wanted, or the status of the answer decides
  by_cases hfinished : Finished out.length expected
  · simp [hfinished, eq_comm]
  · rw [if_neg hfinished]
    dsimp only
    cases (s.send (nextWindow out.length expected)).status with
    | ok =>
      dsimp only
      split <;> simp [hfinished]
    | streamEnd => simp [hfinished, eq_comm]
    | halted why => simp [hfinished]

/-- When a turn ends the loop in an error. -/
theorem turn_eq_error_iff {why : Halt ε} : turn guarded expected s out = .inr (.error why) ↔
    ¬Finished out.length expected ∧
      ((s.send (nextWindow out.length expected)).status = .halted why ∨
        (s.send (nextWindow out.length expected)).status = .ok ∧
          (guarded ∧ (s.send (nextWindow out.length expected)).bytes = [] ∧
            (s.send (nextWindow out.length expected)).state.Exhausted) ∧ why = .truncated) := by
  unfold turn
  by_cases hfinished : Finished out.length expected
  · simp [hfinished]
  · rw [if_neg hfinished]
    dsimp only
    cases (s.send (nextWindow out.length expected)).status with
    | ok =>
      dsimp only
      split
      · next hguard => simp [hfinished, hguard, eq_comm]
      · next hguard => simp [hguard]
    | streamEnd => simp
    | halted why' => simp [hfinished]

/-- When a turn goes on with the loop. -/
theorem turn_eq_more_iff : turn guarded expected s out = .inl (s', out') ↔
    ¬Finished out.length expected ∧
      (s.send (nextWindow out.length expected)).status = .ok ∧
      ¬(guarded ∧ (s.send (nextWindow out.length expected)).bytes = [] ∧
        (s.send (nextWindow out.length expected)).state.Exhausted) ∧
      s' = (s.send (nextWindow out.length expected)).state ∧
      out' = out ++ (s.send (nextWindow out.length expected)).bytes := by
  unfold turn
  by_cases hfinished : Finished out.length expected
  · simp [hfinished]
  · rw [if_neg hfinished]
    dsimp only
    cases (s.send (nextWindow out.length expected)).status with
    | ok =>
      dsimp only
      split
      · next hguard => simp [hguard]
      · next hguard =>
        rw [Sum.inl.injEq, Prod.mk.injEq, eq_comm, eq_comm (b := out')]
        exact ⟨fun h => ⟨hfinished, rfl, hguard, h⟩, fun h => h.2.2.2⟩
    | streamEnd => simp
    | halted why => simp

/-- A loop that goes on asks for room. -/
theorem nextWindow_pos (h : ¬Finished out.length expected) :
    0 < nextWindow out.length expected := by
  have hchunk : 0 < outputChunk := by decide
  cases expected with
  | none => exact hchunk
  | some n =>
    have hn : out.length < n := Nat.not_le.mp h
    exact lt_min hchunk (Nat.sub_pos_of_lt hn)

/-- The loop ends with one result. -/
theorem Ends.unique (h : Ends guarded expected s out result)
    (h' : Ends guarded expected s out result') : result = result' := by
  -- a turn either ends the loop or goes on with it, so both ways are of one length
  induction h with
  | last hturn =>
    cases h' with
    | last hturn' => exact Sum.inr.inj (hturn.symm.trans hturn')
    | more hturn' => cases hturn.symm.trans hturn'
  | more hturn _ ih =>
    cases h' with
    | last hturn' => cases hturn.symm.trans hturn'
    | more hturn' hrest' =>
      obtain ⟨rfl, rfl⟩ := Prod.mk.inj (Sum.inl.inj (hturn.symm.trans hturn'))
      exact ih hrest'

/-- The bytes that the loop ends with are those of a conversation, at the end of which the stream
has ended or all that was wanted has been stored. -/
theorem Ends.exists_talk {o : Bytes} (h : Ends guarded expected s out (.ok o)) :
    ∃ windows, Positive windows ∧ o = out ++ (s.talk windows).1 ∧
      ((s.talk windows).2 = .streamEnd ∨ Finished o.length expected) := by
  generalize hresult : (Except.ok o : Except (Halt ε) Bytes) = result at h
  induction h with
  | last hturn =>
    subst hresult
    rcases turn_eq_ok_iff.mp hturn with ⟨hfinished, rfl⟩ | ⟨hnot, hend, rfl⟩
    · -- the loop stopped before a call
      exact ⟨[], List.forall_mem_nil _, (List.append_nil _).symm, .inr hfinished⟩
    · refine ⟨[_], List.forall_mem_singleton.mpr (nextWindow_pos hnot), ?_⟩
      rw [Stream.talk_cons_of_ne (by simp [hend]), hend]
      exact ⟨rfl, .inl rfl⟩
  | more hturn _ ih =>
    obtain ⟨hnot, hok, -, rfl, rfl⟩ := turn_eq_more_iff.mp hturn
    obtain ⟨windows, hpos, ho, hend⟩ := ih hresult
    refine ⟨_ :: windows, List.forall_mem_cons.mpr ⟨nextWindow_pos hnot, hpos⟩, ?_⟩
    rw [Stream.talk_cons_of_ok hok]
    exact ⟨ho.trans (List.append_assoc ..), hend⟩

/-- A call of the loop does not store more than is wanted. -/
theorem length_append_send_le {n : ℕ} (hfits : L.Fits) (hout : out.length ≤ n) :
    (out ++ (s.send (nextWindow out.length (some n))).bytes).length ≤ n := by
  have hwindow : (s.send (nextWindow out.length (some n))).bytes.length ≤
      min outputChunk (n - out.length) := hfits _ _ _
  rw [List.length_append]
  omega

/-- Nothing is stored beyond the declared size. -/
theorem Ends.length_le {o : Bytes} {n : ℕ} (hfits : L.Fits)
    (h : Ends guarded (some n) s out (.ok o)) (hout : out.length ≤ n) : o.length ≤ n := by
  generalize hresult : (Except.ok o : Except (Halt ε) Bytes) = result at h
  induction h with
  | last hturn =>
    subst hresult
    rcases turn_eq_ok_iff.mp hturn with ⟨-, rfl⟩ | ⟨-, -, rfl⟩
    · exact hout
    · exact length_append_send_le hfits hout
  | more hturn _ ih =>
    obtain ⟨-, -, -, rfl, rfl⟩ := turn_eq_more_iff.mp hturn
    exact ih (length_append_send_le hfits hout) hresult

/-! ### The windows of the loop -/

/-- The windows that the loop asks for, and windows of one byte when it would have ended. -/
def Stream.windows (expected : Option ℕ) : (s : L.Stream) → (produced : ℕ) → ℕ → ℕ
  | _, produced, 0 => max 1 (nextWindow produced expected)
  | s, produced, i + 1 =>
    let answer := s.send (max 1 (nextWindow produced expected))
    answer.state.windows expected (produced + answer.bytes.length) i

theorem Stream.windows_pos (expected : Option ℕ) (s : L.Stream) (produced i : ℕ) :
    0 < s.windows expected produced i := by
  induction i generalizing s produced with
  | zero => exact lt_max_of_lt_left Nat.one_pos
  | succ i ih => exact ih _ _

theorem Stream.positive_windows (expected : Option ℕ) (s : L.Stream) (produced calls : ℕ) :
    Positive ((List.range calls).map (s.windows expected produced)) := by
  intro window hmem
  obtain ⟨i, -, rfl⟩ := List.mem_map.mp hmem
  exact s.windows_pos expected produced i

/-- The first windows of a loop that has not ended. -/
theorem Stream.map_windows_succ (h : ¬Finished out.length expected) (calls : ℕ) :
    (List.range (calls + 1)).map (s.windows expected out.length) =
      nextWindow out.length expected ::
        (List.range calls).map ((s.send (nextWindow out.length expected)).state.windows expected
          (out ++ (s.send (nextWindow out.length expected)).bytes).length) := by
  have hmax : max 1 (nextWindow out.length expected) = nextWindow out.length expected :=
    max_eq_right (nextWindow_pos h)
  rw [List.range_succ_eq_map, List.map_cons, List.map_map, windows, hmax, List.length_append]
  congr 2
  funext i
  rw [Function.comp_apply, windows, hmax]

/-- If the stream ends on its windows, the loop has ended by then, with as much as was wanted. -/
theorem Ends.of_talk {n calls : ℕ} (hfits : L.Fits) (hstalls : guarded → L.Stalls)
    (hend : (s.talk ((List.range calls).map (s.windows (some n) out.length))).2 = .streamEnd)
    (hout : out.length ≤ n) :
    let windows := (List.range calls).map (s.windows (some n) out.length)
    Ends guarded (some n) s out (.ok ((out ++ (s.talk windows).1).take n)) := by
  dsimp only
  -- the loop and the talk make the same calls for as long as something is wanted
  induction calls generalizing s out with
  | zero => cases hend
  | succ calls ih =>
    by_cases hfinished : Finished out.length (some n)
    · -- the talk goes on without the loop
      rw [List.take_left' (le_antisymm hout hfinished)]
      exact .last (turn_eq_ok_iff.mpr (.inl ⟨hfinished, rfl⟩))
    · rw [Stream.map_windows_succ hfinished] at hend ⊢
      have hroom := length_append_send_le (s := s) hfits hout
      cases hstatus : (s.send (nextWindow out.length (some n))).status with
      | ok =>
        rw [Stream.talk_cons_of_ok hstatus] at hend ⊢
        have hmoves : ¬(guarded ∧ (s.send (nextWindow out.length (some n))).bytes = [] ∧
            (s.send (nextWindow out.length (some n))).state.Exhausted) := by
          rintro ⟨hguarded, hnothing, hexhausted⟩
          -- a library that stalls does not get to the end
          have hstalled := hstalls hguarded s _ (nextWindow_pos hfinished) hstatus hnothing
            hexhausted
          cases (hstalled _ (Stream.positive_windows _ _ _ _)).symm.trans hend
        apply Ends.more (turn_eq_more_iff.mpr ⟨hfinished, hstatus, hmoves, rfl, rfl⟩)
        rw [← List.append_assoc]
        exact ih hend hroom
      | streamEnd =>
        rw [Stream.talk_cons_of_ne (by simp [hstatus]), List.take_of_length_le hroom]
        exact .last (turn_eq_ok_iff.mpr (.inr ⟨hfinished, hstatus, rfl⟩))
      | halted why =>
        rw [Stream.talk_cons_of_ne (by simp [hstatus]), hstatus] at hend
        cases hend

/-- **Windows do not matter, so a declared size selects a prefix.** -/
theorem CutFree.selectsPrefix {start : Bytes → L.Stream} (h : L.CutFree start) (guarded : Bool)
    (hstalls : guarded → L.Stalls) (input : Bytes) :
    SelectsPrefix fun expected result => Ends guarded expected (start input) [] result where
  take {o} hends n := by
    obtain ⟨windows, hpos, rfl, hend | hnever⟩ := hends.exists_talk
    · -- the end that was reached without a size is reached on the windows for this one, too
      obtain ⟨calls, hcalls⟩ := h.ends input hpos hend ((start input).windows (some n) 0)
        ((start input).windows_pos (some n) 0)
      rw [← hcalls] at hend ⊢
      exact Ends.of_talk h.fits hstalls hend (Nat.zero_le n)
    · exact hnever.elim
  length_le hends := hends.length_le h.fits (Nat.zero_le _)
  agree {n n' o o'} hends hends' i hi hi' := by
    obtain ⟨windows, hpos, rfl, -⟩ := hends.exists_talk
    obtain ⟨windows', hpos', rfl, -⟩ := hends'.exists_talk
    simp only [List.nil_append] at hi hi' ⊢
    -- of two conversations about one input, one is the beginning of the other
    rcases h.comparable input hpos hpos' with ⟨rest, hrest⟩ | ⟨rest, hrest⟩
    · rw [← hrest, List.getElem?_append_left hi]
    · rw [← hrest, List.getElem?_append_left hi']

end Library

end SolidArchive.Codec
