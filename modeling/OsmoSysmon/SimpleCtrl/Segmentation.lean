import OsmoSysmon.SimpleCtrl.Framing

/-! # Streams that arrive in segments

The header and the payload of a frame are each fetched with one `read`, and a
`read` that comes short ends the receive.  `segments_cases` follows the frames
through a segmented stream up to the first short read.
-/

namespace OsmoSysmon

/-- A stream that arrives in `chunks`, each in time. -/
def segments (chunks : List (List UInt8)) (rest : List RxEvent) : List RxEvent :=
  chunks.map .data ++ rest

/-- What the code fetches with one `read` each. -/
def pieces (frames : List IpaFrame) : List (List UInt8) :=
  frames.flatMap fun f => [f.header, f.payload]

/-- Every piece lies within one chunk. -/
inductive Aligned : List (List UInt8) → List (List UInt8) → Prop
  | nil : Aligned [] []
  /-- The piece is the rest of its chunk. -/
  | ends {p : List UInt8} {ps cs : List (List UInt8)} : Aligned ps cs → Aligned (p :: ps) (p :: cs)
  /-- More of the chunk follows the piece. -/
  | inside {p c : List UInt8} {ps cs : List (List UInt8)} :
      c ≠ [] → Aligned ps (c :: cs) → Aligned (p :: ps) ((p ++ c) :: cs)

theorem Aligned.cons_inv {p : List UInt8} {ps chunks : List (List UInt8)}
    (aligned : Aligned (p :: ps) chunks) :
    (∃ cs, chunks = p :: cs ∧ Aligned ps cs) ∨
      ∃ c cs, c ≠ [] ∧ chunks = (p ++ c) :: cs ∧ Aligned ps (c :: cs) := by
  cases aligned with
  | ends rest => exact .inl ⟨_, rfl, rest⟩
  | inside more rest => exact .inr ⟨_, _, more, rfl, rest⟩

theorem Aligned.ends_iff {p : List UInt8} {ps cs : List (List UInt8)} :
    Aligned (p :: ps) (p :: cs) ↔ Aligned ps cs := by
  refine ⟨fun aligned => ?_, .ends⟩
  obtain ⟨_, eq, rest⟩ | ⟨_, _, more, eq, -⟩ := aligned.cons_inv
  · cases eq
    exact rest
  · simp only [List.cons.injEq, List.self_eq_append_right] at eq
    exact absurd eq.1 more

theorem Aligned.inside_iff {p c : List UInt8} {ps cs : List (List UInt8)} (more : c ≠ []) :
    Aligned (p :: ps) ((p ++ c) :: cs) ↔ Aligned ps (c :: cs) := by
  refine ⟨fun aligned => ?_, .inside more⟩
  obtain ⟨_, eq, -⟩ | ⟨_, _, -, eq, rest⟩ := aligned.cons_inv
  · simp only [List.cons.injEq, List.append_right_eq_self] at eq
    exact absurd eq.1 more
  · simp only [List.cons.injEq, List.append_cancel_left_eq] at eq
    obtain ⟨rfl, rfl⟩ := eq
    exact rest

/-- A piece does not lie in a chunk that is shorter. -/
theorem not_aligned_of_short {p c : List UInt8} (short : c.length < p.length)
    (ps cs : List (List UInt8)) : ¬ Aligned (p :: ps) (c :: cs) := by
  intro aligned
  obtain ⟨_, eq, -⟩ | ⟨_, _, -, eq, -⟩ := aligned.cons_inv
  · cases eq
    exact Nat.lt_irrefl _ short
  · cases eq
    rw [List.length_append] at short
    omega

/-- A message, whichever allocation holds it. -/
def Msgb.message (m : Msgb) : Msgb := { m with id := 0 }

/-! ## One read -/

theorem rxBytes_segments (chunks : List (List UInt8)) (rest : List RxEvent) :
    rxBytes (segments chunks rest) = chunks.flatten.length + rxBytes rest := by
  induction chunks with
  | nil => simp [segments]
  | cons c cs ih =>
    simp only [segments, List.map_cons, List.cons_append, rxBytes, List.flatten_cons,
      List.length_append] at ih ⊢
    omega

theorem pullTimeout_segments {c : List UInt8} (nonempty : c ≠ []) (count : Nat) (tout : UInt32)
    (cs : List (List UInt8)) (rest : List RxEvent) :
    pullTimeout count tout (segments (c :: cs) rest) = pull count (segments (c :: cs) rest) := by
  obtain ⟨b, bs, rfl⟩ := List.exists_cons_of_ne_nil nonempty
  rfl

theorem pull_segments {c : List UInt8} (nonempty : c ≠ []) {count : Nat} (positive : 0 < count)
    (cs : List (List UInt8)) (rest : List RxEvent) :
    pull count (segments (c :: cs) rest) = .ok (some (c.take count),
      if c.length ≤ count then segments cs rest else segments (c.drop count :: cs) rest) := by
  obtain ⟨b, bs, rfl⟩ := List.exists_cons_of_ne_nil nonempty
  rw [pull, if_neg (by omega)]
  rfl

/-- A piece at the front of the stream is fetched whole, or its chunk is too short
    for it. -/
theorem piece_cases {p more : List UInt8} {chunks : List (List UInt8)} (positive : 0 < p.length)
    (nonempty : ∀ c ∈ chunks, c ≠ []) (stream : chunks.flatten = p ++ more) (tout : UInt32)
    (rest : List RxEvent) :
    pullTimeout p.length tout (segments chunks rest) = pull p.length (segments chunks rest) ∧
    ((∃ left, (∀ c ∈ left, c ≠ []) ∧ left.flatten = more ∧
        (∀ ps, Aligned (p :: ps) chunks ↔ Aligned ps left) ∧
        pull p.length (segments chunks rest) = .ok (some p, segments left rest)) ∨
      ∃ c left, c.length < p.length ∧ p.length + more.length = c.length + left.flatten.length ∧
        (∀ ps, ¬ Aligned (p :: ps) chunks) ∧
        pull p.length (segments chunks rest) = .ok (some c, segments left rest)) := by
  cases chunks with
  | nil =>
    have empty : p = [] := by simpa using (List.append_eq_nil_iff.mp stream.symm).1
    simp [empty] at positive
  | cons c cs =>
    have some_byte := nonempty c List.mem_cons_self
    have others := fun d member => nonempty d (List.mem_cons_of_mem c member)
    refine ⟨pullTimeout_segments some_byte _ _ _ _, ?_⟩
    rw [pull_segments some_byte positive]
    rw [List.flatten_cons] at stream
    -- the first chunk against the piece: too short, just the piece, or more than it
    rcases Nat.lt_trichotomy c.length p.length with short | equal | long
    · right
      have lengths := congrArg List.length stream
      rw [List.length_append, List.length_append] at lengths
      refine ⟨c, cs, short, lengths.symm, fun ps => not_aligned_of_short short ps cs, ?_⟩
      rw [List.take_of_length_le (by omega), if_pos (by omega)]
    · left
      obtain ⟨rfl, rest_of_stream⟩ := List.append_inj stream equal
      refine ⟨cs, others, rest_of_stream, fun _ => Aligned.ends_iff, ?_⟩
      rw [List.take_length, if_pos (Nat.le_refl _)]
    · left
      have front : p <+: c :=
        List.prefix_of_prefix_length_le (stream ▸ List.prefix_append p more)
          (List.prefix_append c cs.flatten) (Nat.le_of_lt long)
      obtain ⟨d, rfl⟩ := front
      have more_of_chunk : d ≠ [] := by
        rintro rfl
        simp at long
      rw [List.append_assoc, List.append_cancel_left_eq] at stream
      refine ⟨d :: cs, ?_, stream, fun _ => Aligned.inside_iff more_of_chunk, ?_⟩
      · simpa [more_of_chunk] using others
      · rw [List.take_left' rfl, if_neg (Nat.not_le.mpr long), List.drop_left' rfl]

/-! ## Frames of a segmented stream -/

/-- The frames are delivered up to the first one that has a piece in two chunks. -/
theorem segments_cases {frames : List IpaFrame} {chunks : List (List UInt8)}
    (payloads : ∀ f ∈ frames, 1 ≤ f.payload.length ∧ f.payload.length ≤ maxPayload)
    (nonempty : ∀ c ∈ chunks, c ≠ []) (stream : chunks.flatten = frames.flatMap IpaFrame.encode)
    (tout : UInt32) (rest : List RxEvent) :
    (Aligned (pieces frames) chunks ∧ Delivers tout frames (segments chunks rest) rest) ∨
      (¬ Aligned (pieces frames) chunks ∧ ∃ fs gs mid rx', frames = fs ++ gs ∧
        Delivers tout fs (segments chunks rest) mid ∧ readFrame tout mid = .ok (none, rx') ∧
        (∀ n ∈ headerLength tout mid, n ≤ maxPayload) ∧ rxBytes rest < rxBytes rx') := by
  -- by induction on the frames: a short header or a short payload ends it, and otherwise the
  -- rest of the stream is a segmented stream again
  induction frames generalizing chunks with
  | nil =>
    -- a chunk that is left would have a byte
    have none_left : chunks = [] := by
      cases chunks with
      | nil => rfl
      | cons c cs => simp [nonempty c List.mem_cons_self] at stream
    subst none_left
    exact .inl ⟨.nil, .nil⟩
  | cons f fs ih =>
    obtain ⟨positive, bounded⟩ := payloads f List.mem_cons_self
    have later := fun g member => payloads g (List.mem_cons_of_mem f member)
    rw [List.flatMap_cons, IpaFrame.encode, List.append_assoc] at stream
    obtain ⟨timely, ⟨left, others, stream', aligned_iff, header⟩ | ⟨got, left, short, bytes, split, header⟩⟩ :=
      piece_cases (by simp) nonempty stream tout rest
    · rw [header] at timely
      obtain ⟨-, ⟨left', others', stream'', aligned_iff', payload⟩ |
        ⟨got, left', short, bytes, split, payload⟩⟩ := piece_cases positive others stream' tout rest
      · have whole : Aligned (pieces (f :: fs)) chunks ↔ Aligned (pieces fs) left' :=
          (aligned_iff _).trans (aligned_iff' _)
        rcases ih later others' stream'' with
          ⟨aligned, delivered⟩ | ⟨split, gs, hs, mid, rx', parts, delivered, stopped⟩
        · exact .inl ⟨whole.mpr aligned, .cons timely payload delivered⟩
        · exact .inr ⟨mt whole.mp split, f :: gs, hs, mid, rx', by rw [parts, List.cons_append],
            .cons timely payload delivered, stopped⟩
      · obtain ⟨length, stopped⟩ := readFrame_of_short_payload timely payload short
        refine .inr ⟨mt (aligned_iff _).mp (split _), [], f :: fs, _, _, rfl, .nil, stopped, ?_, ?_⟩
        · simpa [length] using bounded
        · rw [rxBytes_segments]
          omega
    · rw [header] at timely
      obtain ⟨noLength, stopped⟩ := readFrame_of_short_header timely short
      refine .inr ⟨split _, [], f :: fs, _, _, rfl, .nil, stopped, by simp [noLength], ?_⟩
      rw [rxBytes_segments]
      simp only [List.length_append] at bytes
      omega

/-! ## Messages of a segmented stream -/

theorem Msgb.HoldsCtrl.message_eq {m m' : Msgb} {f : IpaFrame} (held : m.HoldsCtrl f)
    (held' : m'.HoldsCtrl f) : m.message = m'.message := by
  have buf := held.buf.trans held'.buf.symm
  ext1
  · rfl
  · exact buf
  · exact held.data.trans held'.data.symm
  · show m.tail = m'.tail
    rw [held.tail, held'.tail, buf]
  · exact held.l1h.trans held'.l1h.symm
  · exact held.l2h.trans held'.l2h.symm

/-- Buffers that hold the same frames are the same messages. -/
theorem messages_initial {ms ms' : List Msgb} {fs gs : List IpaFrame}
    (held : List.Forall₂ Msgb.HoldsCtrl ms fs) (held' : List.Forall₂ Msgb.HoldsCtrl ms' (fs ++ gs)) :
    ms.map Msgb.message <+: ms'.map Msgb.message := by
  induction held generalizing ms' with
  | nil => exact List.nil_prefix
  | cons first _ ih =>
    cases held' with
    | cons first' rest' =>
      rw [List.map_cons, List.map_cons, first.message_eq first']
      exact List.cons_prefix_cons.mpr ⟨rfl, ih rest'⟩

/-- **Up to the first `NULL`, a segmented stream gives an initial part of the
    messages that full reads give; it gives all of them and is read to its end
    exactly when no header and no payload lies in two chunks.** -/
theorem simpleCtrlReceive_segments {sch : SimpleCtrlHandle} {frames : List IpaFrame}
    {chunks : List (List UInt8)} {full rest : List RxEvent} (tx : List TxEvent)
    (payloads : ∀ f ∈ frames, 1 ≤ f.payload.length ∧ f.payload.length ≤ maxPayload)
    (nonempty : ∀ c ∈ chunks, c ≠ []) (stream : chunks.flatten = frames.flatMap IpaFrame.encode)
    (ended : Ended sch.toutMsec rest) (delivered : Delivers sch.toutMsec frames full rest) :
    ∃ ms w ms' w', Receives sch { rx := full, tx, trace := [] } ms w ∧
      Receives sch { rx := segments chunks rest, tx, trace := [] } ms' w' ∧
      ms'.map Msgb.message <+: ms.map Msgb.message ∧
      (ms'.map Msgb.message = ms.map Msgb.message ∧ rxBytes w'.rx = rxBytes w.rx ↔
        Aligned (pieces frames) chunks) := by
  have bounded := fun f member => (payloads f member).2
  obtain ⟨noHeader, rx, stopped, drained⟩ := readFrame_of_ended ended
  obtain ⟨ms, w, run, there, held⟩ := receives_of_delivers delivered bounded stopped
    (by simp [noHeader]) (w := { rx := full, tx, trace := [] }) rfl
  rcases segments_cases payloads nonempty stream sch.toutMsec rest with
    ⟨aligned, delivered'⟩ | ⟨split, fs, gs, mid, rx', rfl, delivered', stopped', short', more⟩
  · obtain ⟨ms', w', run', there', held'⟩ := receives_of_delivers delivered' bounded stopped
      (by simp [noHeader]) (w := { rx := segments chunks rest, tx, trace := [] }) rfl
    have same : ms'.map Msgb.message = ms.map Msgb.message := by
      rw [← List.append_nil (frames.filter _)] at held
      refine (messages_initial held' held).eq_of_length ?_
      simp [held.length_eq, held'.length_eq]
    exact ⟨ms, w, ms', w', run, run', same ▸ List.prefix_refl _,
      iff_of_true ⟨same, by rw [there, there']⟩ aligned⟩
  · obtain ⟨ms', w', run', there', held'⟩ := receives_of_delivers delivered'
      (fun f member => bounded f (List.mem_append_left _ member)) stopped' short'
      (w := { rx := segments chunks rest, tx, trace := [] }) rfl
    rw [List.filter_append] at held
    refine ⟨ms, w, ms', w', run, run', messages_initial held' held, iff_of_false ?_ split⟩
    rintro ⟨-, drained'⟩
    rw [there, there'] at drained'
    omega

/-- A payload in a chunk of its own. -/
theorem simpleCtrlReceive_segments_aligned :
    ∃ ms w ms' w', Receives freshHandle
        { rx := [.data [0, 2, 0xee, 0x00, 0x47]], tx := [], trace := [] } ms w ∧
      Receives freshHandle
        { rx := [.data [0, 2, 0xee], .data [0x00, 0x47]], tx := [], trace := [] } ms' w' ∧
      ms'.map Msgb.message = ms.map Msgb.message := by
  obtain ⟨ms, w, ms', w', run, run', -, same⟩ := @simpleCtrlReceive_segments freshHandle
    [⟨0xee, [0x00, 0x47], by decide⟩] [[0, 2, 0xee], [0x00, 0x47]]
    [.data [0, 2, 0xee, 0x00, 0x47]] [] [] (by decide) (by decide) (by decide)
    ⟨none, [], rfl, rfl⟩ (.cons rfl rfl .nil)
  exact ⟨ms, w, ms', w', run, run', (same.mpr (.ends (.ends .nil))).1⟩

/-- A chunk that ends inside the header loses the message. -/
theorem simpleCtrlReceive_split_header :
    (∃ m w, Receives freshHandle
      { rx := [.data [0, 2, 0xee, 0x00, 0x47]], tx := [], trace := [] } [m] w) ∧
    ∃ w, Receives freshHandle
      { rx := [.data [0], .data [2, 0xee, 0x00, 0x47]], tx := [], trace := [] } [] w := by
  constructor
  · obtain ⟨ms, w, run, -, held⟩ := @receives_of_delivers freshHandle
      [⟨0xee, [0x00, 0x47], by decide⟩] [.data [0, 2, 0xee, 0x00, 0x47]] [] []
      (.cons rfl rfl .nil) (by decide) rfl nofun
      { rx := [.data [0, 2, 0xee, 0x00, 0x47]], tx := [], trace := [] } rfl
    cases held with
    | cons _ none_left =>
      cases none_left
      exact ⟨_, _, run⟩
  · exact ⟨_, .null rfl⟩

end OsmoSysmon
