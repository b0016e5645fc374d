import SolidArchive.Proofs.Codec.Prefixes

/-!
# The loops end

A loop around a library goes on for as long as the library reports that all is well. It ends on
every input, a damaged or a broken-off one included (`Library.Stream.Concludes`), for a call that
goes well has taken some of the input or stored something, and there is only so much of either. What
a library may do instead is to report that all is well when nothing was done at all
(`Stream.Idles`). One library never does that, one does it once before it reports that its input has
run out, and one goes on doing it for ever (`Library.NeverIdles`, `Library.IdlesOnce`,
`Library.Fills`). The loop around the last one has to look after that, and would not end if it did
not (`Stream.Silent.not_ends`).

So the measure is what is left of the input and what is still to be stored, and it becomes smaller
with every other turn at the latest (`Underway.turn`, `Ends.exists_of_responds`). Where the input
runs out before the stream ends and before all that is wanted has been stored, there is no good way
for the loop to end (`Ends.exists_talk`), and it ends in an error.
-/

namespace SolidArchive.Codec

variable {ε : Type}

namespace Library

variable {L : Library ε} {s t : L.Stream} {start : Bytes → L.Stream} {window bound : ℕ}
  {expected : Option ℕ} {guarded : Bool} {out : Bytes}

namespace Stream

/-! ### What a call does -/

/-- How much of the input is left. -/
def left (s : L.Stream) : ℕ := s.shown.length + s.hidden.length

/-- A call takes nothing of the input and stores nothing. -/
def Idles (s : L.Stream) (window : ℕ) : Prop :=
  (s.send window).bytes = [] ∧ (s.send window).state.left = s.left

/-- The streams that a conversation comes to in which all goes well. -/
inductive Reaches (s : L.Stream) : L.Stream → Prop where
  | refl : Reaches s s
  | send {t : L.Stream} {window : ℕ} (h : Reaches s t) (hwindow : 0 < window)
    (hok : (t.send window).status = .ok) : Reaches s (t.send window).state

/-- No more than `bound` bytes are stored, whatever is asked for. -/
def Emits (s : L.Stream) (bound : ℕ) : Prop :=
  ∀ windows, Positive windows → (s.talk windows).1.length ≤ bound

theorem left_fed (s : L.Stream) : s.fed.left = s.left := by
  unfold fed
  split
  · next hshown =>
    unfold left
    rw [hshown, ← List.length_append, List.take_append_drop]
    exact (Nat.zero_add _).symm
  · rfl

/-- Nothing is held back when nothing is shown. -/
theorem hidden_fed_of_shown (h : s.fed.shown = []) : s.fed.hidden = [] := by
  unfold fed at h ⊢
  split at h
  · next hshown =>
    have hhidden : s.hidden = [] := (List.take_eq_nil_iff.mp h).resolve_left (by decide)
    rw [if_pos hshown]
    exact (congrArg (List.drop maxInput) hhidden).trans List.drop_nil
  · next hshown => exact absurd h hshown

theorem left_send (s : L.Stream) (window : ℕ) :
    (s.send window).state.left =
      (s.send window).state.shown.length + s.fed.hidden.length := rfl

theorem left_send_le (s : L.Stream) (window : ℕ) : (s.send window).state.left ≤ s.left := by
  have htaken : (s.send window).state.shown.length ≤ s.fed.shown.length := by
    show (List.drop _ _).length ≤ _
    rw [List.length_drop]
    exact Nat.sub_le _ _
  rw [left_send, ← left_fed s]
  exact Nat.add_le_add_right htaken _

/-- What a call stores is not stored again. -/
theorem Emits.send (h : s.Emits bound) (hwindow : 0 < window)
    (hok : (s.send window).status = .ok) :
    (s.send window).bytes.length ≤ bound ∧
      (s.send window).state.Emits (bound - (s.send window).bytes.length) := by
  have hrest : ∀ windows, Positive windows → (s.send window).bytes.length +
      ((s.send window).state.talk windows).1.length ≤ bound := by
    intro windows hwindows
    have hall := h (window :: windows) (List.forall_mem_cons.mpr ⟨hwindow, hwindows⟩)
    rwa [talk_cons_of_ok hok, List.length_append] at hall
  exact ⟨hrest [] (List.forall_mem_nil _), fun windows hwindows =>
    Nat.le_sub_of_add_le' (hrest windows hwindows)⟩

/-! ### The loop ends -/

/-- A stream that is reached, and from which no more than `bound` bytes are stored. -/
structure Underway (s t : L.Stream) (bound : ℕ) : Prop where
  reaches : s.Reaches t
  emits : t.Emits bound

/-- **What a turn leaves to do** is no more than before, and less if its call did something. -/
theorem Underway.turn {next : L.Stream × Bytes} (h : Underway s t bound)
    (hturn : Library.turn guarded expected t out = .inl next) :
    ∃ bound', Underway s next.1 bound' ∧ bound' + next.1.left ≤ bound + t.left ∧
      (¬t.Idles (nextWindow out.length expected) → bound' + next.1.left < bound + t.left) := by
  obtain ⟨hmore, hok, -, hnext, -⟩ := turn_eq_more_iff.mp hturn
  have hwindow := nextWindow_pos hmore
  have hleft := left_send_le t (nextWindow out.length expected)
  obtain ⟨hbytes, hemits⟩ := h.emits.send hwindow hok
  rw [hnext]
  refine ⟨_, ⟨h.reaches.send hwindow hok, hemits⟩, by omega, fun hdoes => ?_⟩
  -- bytes that are stored lower the bound, and otherwise input has been taken
  by_cases hstored : (t.send (nextWindow out.length expected)).bytes = []
  · have htaken : (t.send (nextWindow out.length expected)).state.left ≠ t.left :=
      fun hsame => hdoes ⟨hstored, hsame⟩
    omega
  · have hlength := List.length_pos_iff.mpr hstored
    omega

/-- A loop that goes on after a call that did nothing does not do so twice. -/
def Responds (guarded : Bool) (s : L.Stream) : Prop :=
  ∀ t, s.Reaches t → ∀ window, 0 < window → (t.send window).status = .ok →
    ¬(guarded ∧ (t.send window).bytes = [] ∧ (t.send window).state.Exhausted) →
      t.Idles window → ∀ window', 0 < window' →
        ((t.send window).state.send window').status = .ok →
          ¬(t.send window).state.Idles window'

/-- The second of two turns in a row does something if the first did not. -/
theorem Responds.not_idles {next last : L.Stream × Bytes} (h : s.Responds guarded)
    (hreach : s.Reaches t) (hturn : Library.turn guarded expected t out = .inl next)
    (hidle : t.Idles (nextWindow out.length expected))
    (hturn' : Library.turn guarded expected next.1 next.2 = .inl last) :
    ¬next.1.Idles (nextWindow next.2.length expected) := by
  obtain ⟨hmore, hok, hguard, hnext, -⟩ := turn_eq_more_iff.mp hturn
  obtain ⟨hmore', hok', -⟩ := turn_eq_more_iff.mp hturn'
  rw [hnext] at hok' ⊢
  exact h t hreach _ (nextWindow_pos hmore) hok hguard hidle _ (nextWindow_pos hmore') hok'

end Stream

/-- **The loop ends** if it does not go on twice after calls that did nothing. -/
theorem Ends.exists_of_responds (h : s.Responds guarded) (ht : Stream.Underway s t bound)
    (expected : Option ℕ) (out : Bytes) : ∃ result, Ends guarded expected t out result := by
  -- on what is left of the input and what is still to be stored, by two turns at a time
  induction hmeasure : bound + t.left using Nat.strongRecOn generalizing t bound out with
  | ind measure ih =>
    subst hmeasure
    cases hturn : turn guarded expected t out with
    | inr result => exact ⟨result, .last hturn⟩
    | inl next =>
      obtain ⟨bound', hnext, hle, hless⟩ := ht.turn hturn
      by_cases hidle : t.Idles (nextWindow out.length expected)
      · cases hturn' : turn guarded expected next.1 next.2 with
        | inr result => exact ⟨result, .more hturn (.last hturn')⟩
        | inl last =>
          obtain ⟨bound'', hlast, -, hless'⟩ := hnext.turn hturn'
          have hdoes := h.not_idles ht.reaches hturn hidle hturn'
          obtain ⟨result, hrest⟩ := ih _ ((hless' hdoes).trans_le hle) hlast last.2 rfl
          exact ⟨result, .more hturn (.more hturn' hrest)⟩
      · obtain ⟨result, hrest⟩ := ih _ (hless hidle) hnext next.2 rfl
        exact ⟨result, .more hturn hrest⟩

/-! ### How it ends -/

/-- The input runs out during a call: it had room, stored nothing and left nothing of the input. -/
def Stream.RunsDry (s : L.Stream) : Prop :=
  ∃ t window, s.Reaches t ∧ 0 < window ∧ (t.send window).status = .ok ∧
    (t.send window).bytes = [] ∧ (t.send window).state.Exhausted

/-- The input runs out before the end of the stream and before all that is wanted has been stored,
whatever is asked for. -/
def Stream.RunsShort (s : L.Stream) (expected : Option ℕ) : Prop :=
  ∀ windows, Positive windows →
    (s.talk windows).2 ≠ .streamEnd ∧ ¬Finished (s.talk windows).1.length expected

/-- An error of the loop has been reported, or it is the loop's own, which has seen the input run
out. -/
theorem Ends.exists_talk_of_error {why : Halt ε} (h : Ends guarded expected t out (.error why))
    (hreach : s.Reaches t) :
    (∃ windows, Positive windows ∧ (t.talk windows).2 = .halted why) ∨
      guarded ∧ why = .truncated ∧ s.RunsDry := by
  generalize hresult : (Except.error why : Except (Halt ε) Bytes) = result at h
  -- the windows of the turns are those of the talk
  induction h with
  | last hturn =>
    subst hresult
    obtain ⟨hmore, hhalted | ⟨hok, ⟨hguarded, hnothing, hexhausted⟩, hwhy⟩⟩ :=
      turn_eq_error_iff.mp hturn
    · refine .inl ⟨[_], List.forall_mem_singleton.mpr (nextWindow_pos hmore), ?_⟩
      rw [Stream.talk_cons_of_ne (by simp [hhalted]), hhalted]
    · exact .inr ⟨hguarded, hwhy, _, _, hreach, nextWindow_pos hmore, hok, hnothing, hexhausted⟩
  | more hturn _ ih =>
    obtain ⟨hmore, hok, -, rfl, rfl⟩ := turn_eq_more_iff.mp hturn
    apply (ih (hreach.send (nextWindow_pos hmore) hok) hresult).imp_left
    rintro ⟨windows, hwindows, hhalted⟩
    refine ⟨_ :: windows, List.forall_mem_cons.mpr ⟨nextWindow_pos hmore, hwindows⟩, ?_⟩
    rw [Stream.talk_cons_of_ok hok, hhalted]

/-- The loop around a stream ends, with one result. If that is an output, it is what was stored when
the stream ended or all that is wanted was there. If it is an error, it was reported, or the input
ran out. And it is an error if the input runs out too early; then it says so, unless there is damage
as well. -/
structure Stream.Concludes (s : L.Stream) (guarded : Bool) (expected : Option ℕ) : Prop where
  ends : ∃! result, Ends guarded expected s [] result
  output {o : Bytes} (h : Ends guarded expected s [] (.ok o)) :
    ∃ windows, Positive windows ∧ o = (s.talk windows).1 ∧
      ((s.talk windows).2 = .streamEnd ∨ Finished o.length expected)
  error {why : Halt ε} (h : Ends guarded expected s [] (.error why)) :
    (∃ windows, Positive windows ∧ (s.talk windows).2 = .halted why) ∨
      guarded ∧ why = .truncated ∧ s.RunsDry
  short (h : s.RunsShort expected) : ∃ why, Ends guarded expected s [] (.error why) ∧
    ((∀ windows, Positive windows → ∀ fault, (s.talk windows).2 ≠ .halted (.corrupt fault)) →
      why = .truncated)

theorem Stream.Responds.concludes (h : s.Responds guarded) (hemits : s.Emits bound)
    (expected : Option ℕ) : s.Concludes guarded expected := by
  obtain ⟨result, hends⟩ := Ends.exists_of_responds h ⟨.refl, hemits⟩ expected []
  refine ⟨⟨result, hends, fun _ h' => h'.unique hends⟩, fun houtput => houtput.exists_talk,
    fun herror => herror.exists_talk_of_error .refl, fun hshort => ?_⟩
  cases result with
  | ok o =>
    -- there is no good way to end
    obtain ⟨windows, hwindows, rfl, hend⟩ := hends.exists_talk
    exact (hend.elim (hshort windows hwindows).1 (hshort windows hwindows).2).elim
  | error why =>
    refine ⟨why, hends, fun hundamaged => ?_⟩
    obtain ⟨windows, hwindows, hhalted⟩ | ⟨-, hwhy, -⟩ := hends.exists_talk_of_error .refl
    · cases why with
      | truncated => rfl
      | corrupt fault => exact absurd hhalted (hundamaged windows hwindows fault)
    · exact hwhy

/-! ### What is asked of a library -/

/-- The bytes that are stored for an input are bounded in number. -/
def Finite (L : Library ε) (start : Bytes → L.Stream) : Prop :=
  ∀ input, ∃ bound, (start input).Emits bound

/-- A call that has room and goes well takes something of the input or stores something. A call that
can do neither reports that the input has run out. -/
def NeverIdles (L : Library ε) (start : Bytes → L.Stream) : Prop :=
  ∀ input s, (start input).Reaches s → ∀ window, 0 < window →
    (s.send window).status = .ok → ¬s.Idles window

/-- Of two calls in a row that have room and go well, one takes something of the input or stores
something. The second call in a row that can do neither, at the latest, reports that the input has
run out. -/
def IdlesOnce (L : Library ε) (start : Bytes → L.Stream) : Prop :=
  ∀ input s, (start input).Reaches s → ∀ window, 0 < window →
    (s.send window).status = .ok → s.Idles window → ∀ window', 0 < window' →
      ((s.send window).state.send window').status = .ok → ¬(s.send window).state.Idles window'

/-- A call that has room and goes well fills its window or uses up the input that it is shown. -/
def Fills (L : Library ε) (start : Bytes → L.Stream) : Prop :=
  ∀ input s, (start input).Reaches s → ∀ window, 0 < window → (s.send window).status = .ok →
    (s.send window).bytes.length = window ∨ (s.send window).state.shown = []

theorem NeverIdles.idlesOnce (h : L.NeverIdles start) : L.IdlesOnce start :=
  fun input s hs window hwindow hok hidle => absurd hidle (h input s hs window hwindow hok)

theorem IdlesOnce.responds (h : L.IdlesOnce start) (guarded : Bool) (input : Bytes) :
    (start input).Responds guarded :=
  fun s hs window hwindow hok _ hidle => h input s hs window hwindow hok hidle

/-- The guard of the loop ends it where nothing can be done any more, so what it lets go on has done
something. -/
theorem Fills.responds (h : L.Fills start) (input : Bytes) : (start input).Responds true := by
  intro s hs window hwindow hok hguard hidle
  obtain ⟨hnothing, hsame⟩ := hidle
  have hshown : (s.send window).state.shown = [] := by
    refine (h input s hs window hwindow hok).resolve_left fun hfilled => ?_
    rw [hnothing] at hfilled
    exact hwindow.ne hfilled
  -- nothing was taken, so there was nothing
  rw [Stream.left_send, hshown, List.length_nil, Nat.zero_add, ← Stream.left_fed s] at hsame
  have hempty : s.fed.shown = [] := by
    apply List.eq_nil_of_length_eq_zero
    unfold Stream.left at hsame
    omega
  exact absurd ⟨rfl, hnothing, hshown, Stream.hidden_fed_of_shown hempty⟩ hguard

/-! ### The guard -/

/-- A library that goes on reporting that all is well, and stores nothing. -/
def Stream.Silent (s : L.Stream) : Prop :=
  ∀ windows, Positive windows → s.talk windows = ([], .ok)

theorem Stream.Silent.send (h : s.Silent) (hwindow : 0 < window) :
    (s.send window).status = .ok ∧ (s.send window).bytes = [] ∧ (s.send window).state.Silent := by
  have hone := h [window] (List.forall_mem_singleton.mpr hwindow)
  have hok : (s.send window).status = .ok := by
    by_contra hne
    rw [talk_cons_of_ne hne] at hone
    exact hne (congrArg Prod.snd hone)
  rw [talk_cons_of_ok hok] at hone
  have hnothing : (s.send window).bytes = [] :=
    (List.append_eq_nil_iff.mp (congrArg Prod.fst hone)).1
  refine ⟨hok, hnothing, fun windows hwindows => ?_⟩
  have hall := h (window :: windows) (List.forall_mem_cons.mpr ⟨hwindow, hwindows⟩)
  rwa [talk_cons_of_ok hok, hnothing] at hall

/-- **Without the guard** the loop around a silent library does not end. -/
theorem Stream.Silent.not_ends {result : Except (Halt ε) Bytes} (h : s.Silent)
    (hmore : ¬Finished out.length expected) : ¬Ends false expected s out result := by
  intro hends
  -- a silent stream has always another turn
  induction hends with
  | @last s out result hturn =>
    obtain ⟨hok, -, -⟩ := h.send (nextWindow_pos hmore)
    have hgoes : turn false expected s out =
        .inl ((s.send (nextWindow out.length expected)).state,
          out ++ (s.send (nextWindow out.length expected)).bytes) :=
      turn_eq_more_iff.mpr ⟨hmore, hok, fun hguard => Bool.false_ne_true hguard.1, rfl, rfl⟩
    cases hgoes.symm.trans hturn
  | more hturn _ ih =>
    obtain ⟨-, -, -, rfl, rfl⟩ := turn_eq_more_iff.mp hturn
    obtain ⟨-, hnothing, hsilent⟩ := h.send (nextWindow_pos hmore)
    rw [hnothing, List.append_nil] at ih
    exact ih hsilent hmore

end Library

open Library

/-! ### The decoders -/

/-- An output is what there is without a declared size, or as much as is declared. -/
def NeverShort {φ : Type} (decodes : Option ℕ → Except φ Bytes) : Prop :=
  ∀ expected o, decodes expected = .ok o → decodes none = .ok o ∨ expected = some o.length

theorem StreamDecoder.neverShort {σ : Type} (d : StreamDecoder σ ε) (start : σ) :
    NeverShort (d.decode start) := by
  intro expected o h
  rw [decode_eq] at h
  rw [decode_eq, if_neg (Option.some_ne_none 0).symm]
  split at h
  · next hzero =>
    obtain rfl := Except.ok.inj h
    exact .inr hzero
  · cases expected with
    | none => exact .inl h
    | some n =>
      unfold Unrolled.upTo at h ⊢
      dsimp only at h ⊢
      split at h
      · next hless =>
        rw [← Except.ok.inj h, List.length_take_of_le hless.le]
        exact .inr rfl
      · next hall =>
        -- less than was expected is the fault of a stream that breaks off
        rcases (Nat.not_lt.mp hall).lt_or_eq with hlt | heq
        · rw [decide_eq_true hlt] at h
          exact .inl h
        · rw [Unrolled.eq_bytes_of_all h, heq]
          exact .inr rfl

theorem NeverShort.mapError {φ : Type} {decodes : Option ℕ → Except ε Bytes}
    (h : NeverShort decodes) (heading : ε → φ) :
    NeverShort fun expected => (decodes expected).mapError heading := by
  intro expected o ho
  exact (h expected o (mapError_eq_ok_iff.mp ho)).imp_left mapError_eq_ok_iff.mpr

theorem decodeInput_neverShort (m : Method) (properties input : Bytes) :
    NeverShort (decodeInput m properties input) := by
  unfold decodeInput
  cases m with
  | copy => exact fun _ _ h => .inl h
  | delta => exact fun _ _ h => .inl h
  | lzma =>
    dsimp only
    cases Lzma.properties? properties with
    | none => exact fun _ _ h => .inl h
    | some p => exact (StreamDecoder.neverShort _ _).mapError _
  | lzma2 =>
    dsimp only
    cases Lzma.chunkedProperties? properties with
    | none => exact fun _ _ h => .inl h
    | some capacity => exact (StreamDecoder.neverShort _ _).mapError _
  | deflate => exact (StreamDecoder.neverShort _ _).mapError _
  | bzip2 => exact (StreamDecoder.neverShort _ _).mapError _

theorem decode_neverShort (id properties : Bytes) (inputs : List Bytes) :
    NeverShort (decode id properties inputs) := by
  unfold decode
  cases method id with
  | error fault => exact fun _ _ h => .inl h
  | ok m =>
    match inputs with
    | [input] => exact decodeInput_neverShort m properties input
    | [] => exact fun _ _ h => .inl h
    | _ :: _ :: _ => exact fun _ _ h => .inl h

/-! ### Libraries that respond -/

/-- What is asked of the libraries, each in its own way. -/
structure Libraries.Responsive (L : Libraries) : Prop where
  lzma_finite {chunked : Bool} {properties : Bytes} {lib : Library Unit}
    (h : L.lzma chunked properties = some lib) : lib.Finite (.whole lib)
  lzma_idlesOnce {chunked : Bool} {properties : Bytes} {lib : Library Unit}
    (h : L.lzma chunked properties = some lib) : lib.IdlesOnce (.whole lib)
  deflate_finite : L.deflate.Finite (.inPieces L.deflate)
  deflate_neverIdles : L.deflate.NeverIdles (.inPieces L.deflate)
  bzip2_finite : L.bzip2.Finite (.inPieces L.bzip2)
  bzip2_fills : L.bzip2.Fills (.inPieces L.bzip2)

/-- There is one result under another heading as well. -/
theorem Library.Stream.Concludes.mapError {φ : Type} {L : Library ε} {s : L.Stream} {guarded : Bool}
    {expected : Option ℕ} (h : s.Concludes guarded expected) (heading : Halt ε → φ) :
    ∃! result, ∃ r, Ends guarded expected s [] r ∧ r.mapError heading = result := by
  obtain ⟨r, hends, hunique⟩ := h.ends
  refine ⟨_, ⟨r, hends, rfl⟩, ?_⟩
  rintro _ ⟨r', hends', rfl⟩
  rw [hunique r' hends']

namespace Libraries.Responsive

variable {L : Libraries}

theorem lzma (h : L.Responsive) {chunked : Bool} {properties : Bytes} {lib : Library Unit}
    (hlib : L.lzma chunked properties = some lib) (input : Bytes) (expected : Option ℕ) :
    (Stream.whole lib input).Concludes false expected := by
  obtain ⟨bound, hemits⟩ := h.lzma_finite hlib input
  exact ((h.lzma_idlesOnce hlib).responds false input).concludes hemits expected

theorem deflate (h : L.Responsive) (input : Bytes) (expected : Option ℕ) :
    (Stream.inPieces L.deflate input).Concludes false expected := by
  obtain ⟨bound, hemits⟩ := h.deflate_finite input
  exact (h.deflate_neverIdles.idlesOnce.responds false input).concludes hemits expected

theorem bzip2 (h : L.Responsive) (input : Bytes) (expected : Option ℕ) :
    (Stream.inPieces L.bzip2 input).Concludes true expected := by
  obtain ⟨bound, hemits⟩ := h.bzip2_finite input
  exact (h.bzip2_fills.responds input).concludes hemits expected

theorem decodesInput (h : L.Responsive) (m : Method) (properties input : Bytes)
    (expected : Option ℕ) : ∃! result, L.DecodesInput m properties input expected result := by
  have hlzma : ∀ chunked, ∃! result, L.DecodesLzma chunked properties input expected result := by
    intro chunked
    unfold DecodesLzma
    cases hlib : L.lzma chunked properties with
    | none => exact existsUnique_eq'
    | some lib => exact (h.lzma hlib input expected).mapError _
  cases m with
  | copy => exact existsUnique_eq'
  | delta => exact existsUnique_eq'
  | lzma => exact hlzma false
  | lzma2 => exact hlzma true
  | deflate => exact (h.deflate input expected).mapError _
  | bzip2 => exact (h.bzip2 input expected).mapError _

theorem decodes (h : L.Responsive) (id properties : Bytes) (inputs : List Bytes)
    (expected : Option ℕ) : ∃! result, L.Decodes id properties inputs expected result := by
  unfold Decodes
  cases method id with
  | error fault => exact existsUnique_eq'
  | ok m =>
    match inputs with
    | [input] => exact h.decodesInput m properties input expected
    | [] => exact existsUnique_eq'
    | _ :: _ :: _ => exact existsUnique_eq'

end Libraries.Responsive

/-! ### The stream decoders respond -/

namespace StreamDecoder

variable {σ : Type} {d : StreamDecoder σ ε} {reports : Bool} {start : Bytes → σ}

theorem buffered_finite (begin : Bytes → (d.buffered reports start).Stream) :
    (d.buffered reports start).Finite begin := by
  intro input
  obtain ⟨u, hholds⟩ : ∃ u, Holds (begin input) u := ⟨_, rfl⟩
  exact ⟨u.bytes.length, fun windows _ => (hholds.talk_prefix windows).length_le⟩

/-- A call that stores nothing, though it has room, reports that the input has run out. -/
theorem buffered_neverIdles (begin : Bytes → (d.buffered true start).Stream) :
    (d.buffered true start).NeverIdles begin := by
  rintro input s - window hwindow hok ⟨hnothing, -⟩
  obtain ⟨u, hholds⟩ : ∃ u, Holds s u := ⟨_, rfl⟩
  rw [hholds.status] at hok
  rw [hholds.bytes] at hnothing
  obtain ⟨-, -, hsilent⟩ := ending_of_stalled hwindow hok hnothing
  cases hsilent

theorem buffered_fills (begin : Bytes → (d.buffered reports start).Stream) :
    (d.buffered reports start).Fills begin :=
  fun _ _ _ _ _ _ => .inr shown_send

/-- Once its input has broken off, a stream decoder that does not report it is silent. -/
theorem Holds.silent {s : (d.buffered false start).Stream} (h : Holds s ⟨[], .truncated⟩) :
    s.Silent :=
  fun windows _ =>
    Prod.ext (List.prefix_nil.mp (h.talk_prefix windows)) (h.talk_of_stalled windows)

section Truncated

variable {s : (d.buffered reports start).Stream} {u : Unrolled ε} {windows : List ℕ}

/-- What is reported is what is wrong. -/
theorem Holds.fault?_of_talk {why : Halt ε} (h : Holds s u)
    (hhalted : (s.talk windows).2 = .halted why) : u.ending.fault? true = some why := by
  induction windows generalizing s u with
  | nil => cases hhalted
  | cons window windows ih =>
    by_cases hok : (s.send window).status = .ok
    · rw [Stream.talk_cons_of_ok hok] at hhalted
      have hrest : (u.drop window).ending.fault? true = some why := ih (h.send window) hhalted
      exact hrest
    · rw [Stream.talk_cons_of_ne hok] at hhalted
      have hroom := Unrolled.length_le_of_handOut (h.status window ▸ hok)
      rw [h.status, Unrolled.status_handOut_of_le hroom] at hhalted
      exact Ending.fault?_of_report hhalted fun _ => rfl

/-- The input of a stream decoder runs short if it breaks off and more is wanted than there is. -/
theorem Holds.runsShort (h : Holds s u) (htruncated : u.ending = .truncated)
    {expected : Option ℕ} (hmore : ¬Finished u.bytes.length expected) : s.RunsShort expected := by
  intro windows _
  refine ⟨fun hend => ?_, fun hfinished => hmore ?_⟩
  · cases htruncated.symm.trans (h.finish_of_talk hend)
  · cases expected with
    | none => exact hfinished
    | some n => exact Nat.le_trans hfinished (h.talk_prefix windows).length_le

/-- There is no damage where the input just breaks off. -/
theorem Holds.not_corrupt (h : Holds s u) (htruncated : u.ending = .truncated) (fault : ε) :
    (s.talk windows).2 ≠ .halted (.corrupt fault) := by
  intro hhalted
  have hfault := h.fault?_of_talk hhalted
  rw [htruncated] at hfault
  cases hfault

end Truncated

end StreamDecoder

/-- Either kind of LZMA is decoded by a stream decoder that reports the end of its input. -/
theorem Libraries.exists_buffered_of_lzma {chunked : Bool} {properties : Bytes} {lib : Library Unit}
    (h : Libraries.buffered.lzma chunked properties = some lib) :
    ∃ (σ : Type) (d : StreamDecoder σ Unit) (start : Bytes → σ), lib = d.buffered true start := by
  cases chunked with
  | false =>
    obtain ⟨⟨parameters, capacity⟩, -, rfl⟩ := Option.map_eq_some_iff.mp h
    exact ⟨_, _, _, rfl⟩
  | true =>
    obtain ⟨capacity, -, rfl⟩ := Option.map_eq_some_iff.mp h
    exact ⟨_, _, _, rfl⟩

theorem Libraries.buffered_responsive : Libraries.buffered.Responsive where
  lzma_finite h := by
    obtain ⟨σ, d, start, rfl⟩ := exists_buffered_of_lzma h
    exact StreamDecoder.buffered_finite _
  lzma_idlesOnce h := by
    obtain ⟨σ, d, start, rfl⟩ := exists_buffered_of_lzma h
    exact (StreamDecoder.buffered_neverIdles _).idlesOnce
  deflate_finite := StreamDecoder.buffered_finite _
  deflate_neverIdles := StreamDecoder.buffered_neverIdles _
  bzip2_finite := StreamDecoder.buffered_finite _
  bzip2_fills := StreamDecoder.buffered_fills _

/-! ### Every input -/

/-- **Decoding ends on every input**, with one result, and not with a short output. So it is with
the loops around all libraries that respond; and a coder that is run on any inputs at all comes to
one result with them, whatever its method and its properties are. The decoders that are used here
are functions, and their outputs are never short either. -/
theorem Libraries.Responsive.decoding_concludes {L : Libraries} (h : L.Responsive) :
    (∀ chunked properties lib, L.lzma chunked properties = some lib → ∀ input expected,
      (Stream.whole lib input).Concludes false expected) ∧
    (∀ input expected, (Stream.inPieces L.deflate input).Concludes false expected) ∧
    (∀ input expected, (Stream.inPieces L.bzip2 input).Concludes true expected) ∧
    (∀ id properties inputs expected, ∃! result, L.Decodes id properties inputs expected result) ∧
    ∀ id properties inputs, NeverShort (decode id properties inputs) :=
  ⟨fun _ _ _ => h.lzma, h.deflate, h.bzip2, h.decodes, decode_neverShort⟩

/-- A BZip2 stream that breaks off after its header. -/
theorem Libraries.Responsive.decoding_concludes_header_only :
    Ends true none (.inPieces Libraries.buffered.bzip2 [66, 90, 104, 57]) []
      (.error .truncated) := by
  obtain ⟨-, -, hbzip2, -, -⟩ := decoding_concludes Libraries.buffered_responsive
  set s := Stream.inPieces Libraries.buffered.bzip2 [66, 90, 104, 57]
  have hholds : StreamDecoder.Holds s
      (Bzip2.decoder.unroll (.start { rest := [66, 90, 104, 57] })) := rfl
  have htruncated : (Bzip2.decoder.unroll (.start { rest := [66, 90, 104, 57] })).ending =
      .truncated := by decide +kernel
  obtain ⟨why, hends, hwhy⟩ := (hbzip2 _ none).short (hholds.runsShort htruncated id)
  rwa [hwhy fun _ _ fault => hholds.not_corrupt htruncated fault] at hends

end SolidArchive.Codec
