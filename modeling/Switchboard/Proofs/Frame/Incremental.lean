import Switchboard.Proofs.Frame.Decoder

/-!
# Frames from bytes that arrive in pieces

A decoder is given bytes in pieces of any size, and is asked for the next frame at any time.  What
it finds depends on the bytes alone: `Decoder.outcome` is what a decoder will have found once nothing
is left to find, and neither asking early nor asking late changes it.  Only garbage is reported in as
many pieces as it arrives in.

Main results:

* `Frame.front_of_next`: all that can stand at the front of a buffer.
* `Frame.Decoder.outcome_next`: asking for the next frame changes nothing about what will be found,
  whatever bytes are still to come.
* `Frame.bytes_of_next`: a frame that is found takes up exactly the bytes that it is written in.
* `Frame.decoding_incremental`: it does not matter how bytes arrive.
-/

namespace Switchboard.Frame

-- ---------------------------------------------------------------------------
-- The front of a buffer
-- ---------------------------------------------------------------------------

/-- The step that finds a frame or a fault, with the bytes after it. -/
def stepOf (result : Except WireError Frame) (rest : Bytes) : FrameStep :=
  match result with
  | .ok frame => .frame frame rest
  | .error error => .fault error rest

/-- What can stand at the front of a buffer: what is found there, and the bytes after it. -/
inductive Front : Bytes → Except WireError Frame → Bytes → Prop where
  /-- A byte that starts no frame, and all bytes up to the next that may. -/
  | garbage {first : UInt8} (tail : Bytes) (other : first ≠ magic) :
      Front (first :: tail) (.error (.badMagic first)) (tail.dropWhile (· ≠ magic))
  /-- A length that does not cover the fixed fields. -/
  | undersized {crcHi crcLo lenHi lenLo tx rx kind : UInt8} (more : Bytes)
      (short : Bytes.uint16 lenHi lenLo < 3) :
      Front (magic :: crcHi :: crcLo :: lenHi :: lenLo :: tx :: rx :: kind :: more)
        (.error (.badLength (Bytes.uint16 lenHi lenLo)))
        (crcHi :: crcLo :: lenHi :: lenLo :: tx :: rx :: kind :: more)
  /-- As many bytes as the length claims. -/
  | claimed {crcHi crcLo lenHi lenLo tx rx kind : UInt8} {body : Bytes} (more : Bytes)
      (long : ¬Bytes.uint16 lenHi lenLo < 3)
      (whole : body.length = (Bytes.uint16 lenHi lenLo).toNat - 2) :
      Front (magic :: crcHi :: crcLo :: lenHi :: lenLo :: tx :: rx :: kind :: (body ++ more))
        (ofParts crcHi crcLo lenHi lenLo tx rx kind body) more

theorem next_of_front {buffer rest : Bytes} {result : Except WireError Frame}
    (h : Front buffer result rest) : next buffer = stepOf result rest := by
  cases h with
  | garbage tail other => exact if_pos other
  | undersized more short =>
    rw [next, if_neg (not_not_intro rfl)]
    dsimp only
    rw [if_pos short]
    rfl
  | claimed more long whole =>
    rw [next, if_neg (not_not_intro rfl)]
    dsimp only
    rw [if_neg long, List.take_left' whole, if_neg (Nat.not_lt.mpr (Nat.le_of_eq whole.symm)),
      List.drop_left' whole]
    rfl

/-- Either there are too few bytes to tell, or one of the three stands there. -/
theorem front_of_next (buffer : Bytes) :
    next buffer = .incomplete ∨ ∃ result rest, Front buffer result rest := by
  unfold next
  split
  · exact .inl rfl
  · next first tail =>
    split
    · next hfirst => exact .inr ⟨_, _, .garbage tail hfirst⟩
    · next hfirst =>
      obtain rfl : first = magic := Decidable.not_not.mp hfirst
      split
      · next crcHi crcLo lenHi lenLo tx rx kind more =>
        dsimp only
        split
        · next hshort => exact .inr ⟨_, _, .undersized more hshort⟩
        · next hlong =>
          split
          · exact .inl rfl
          · next hwhole =>
            -- the bytes that the length claims are all there
            obtain ⟨body, rest, rfl, hbody⟩ : ∃ body rest, more = body ++ rest ∧
                body.length = (Bytes.uint16 lenHi lenLo).toNat - 2 :=
              ⟨_, _, (List.take_append_drop _ more).symm,
                Nat.le_antisymm (List.length_take_le ..) (Nat.le_of_not_lt hwhole)⟩
            exact .inr ⟨_, _, .claimed rest hlong hbody⟩
      · exact .inl rfl

theorem front_iff_next {buffer rest : Bytes} {result : Except WireError Frame} :
    Front buffer result rest ↔ next buffer = stepOf result rest := by
  refine ⟨next_of_front, fun h => ?_⟩
  rcases front_of_next buffer with hnone | ⟨result', rest', hfront⟩
  · cases result <;> cases hnone.symm.trans h
  · have hstep := (next_of_front hfront).symm.trans h
    cases result' <;> cases result <;> cases hstep <;> exact hfront

/-- What is found makes the buffer shorter. -/
theorem Front.length_lt {buffer rest : Bytes} {result : Except WireError Frame}
    (h : Front buffer result rest) : rest.length < buffer.length := by
  have hnext := next_of_front h
  cases result with
  | ok frame => exact length_of_next_frame hnext
  | error error => exact length_of_next_fault hnext

theorem dropWhile_append_dropWhile (p : UInt8 → Bool) (xs ys : Bytes) :
    (xs.dropWhile p ++ ys).dropWhile p = (xs ++ ys).dropWhile p := by
  induction xs with
  | nil => rfl
  | cons x xs ih =>
    cases hx : p x with
    | false => rw [List.dropWhile_cons_of_neg (by simp [hx])]
    | true =>
      rw [List.dropWhile_cons_of_pos hx, ih, List.cons_append, List.dropWhile_cons_of_pos hx]

/-- What is found does not depend on the bytes that follow, except that garbage goes on where more of
it follows. -/
theorem Front.append {buffer rest : Bytes} {result : Except WireError Frame}
    (h : Front buffer result rest) (more : Bytes) :
    Front (buffer ++ more) result (rest ++ more) ∨
      Front (buffer ++ more) result ((rest ++ more).dropWhile (· ≠ magic)) := by
  cases h with
  | garbage tail other =>
    refine .inr ?_
    rw [dropWhile_append_dropWhile]
    exact .garbage (tail ++ more) other
  | undersized rest short => exact .inl (.undersized (rest ++ more) short)
  | @claimed _ _ _ _ _ _ _ body rest long whole =>
    refine .inl ?_
    rw [List.cons_append, List.cons_append, List.cons_append, List.cons_append, List.cons_append,
      List.cons_append, List.cons_append, List.cons_append, List.append_assoc]
    exact .claimed (rest ++ more) long whole

-- ---------------------------------------------------------------------------
-- Draining
-- ---------------------------------------------------------------------------

theorem drainOnto_of_incomplete {buffer : Bytes} (h : next buffer = .incomplete)
    (found : List (Except WireError Frame)) : drainOnto found buffer = (found.reverse, buffer) := by
  rw [drainOnto]
  split
  · rfl
  · next hnext => cases h.symm.trans hnext
  · next hnext => cases h.symm.trans hnext

theorem drainOnto_of_front {buffer rest : Bytes} {result : Except WireError Frame}
    (h : Front buffer result rest) (found : List (Except WireError Frame)) :
    drainOnto found buffer = drainOnto (result :: found) rest := by
  have hfound := next_of_front h
  rw [drainOnto]
  split
  · next hnext => cases result <;> cases hfound.symm.trans hnext
  · next hnext => cases result <;> cases hfound.symm.trans hnext; rfl
  · next hnext => cases result <;> cases hfound.symm.trans hnext; rfl

/-- What was found before stands in front of what is found in the buffer. -/
theorem drainOnto_eq (found : List (Except WireError Frame)) (buffer : Bytes) :
    drainOnto found buffer = (found.reverse ++ (drain buffer).1, (drain buffer).2) := by
  rcases front_of_next buffer with h | ⟨result, rest, h⟩
  · rw [drain, drainOnto_of_incomplete h, drainOnto_of_incomplete h, List.reverse_nil,
      List.append_nil]
  · have hlength := h.length_lt
    rw [drain, drainOnto_of_front h, drainOnto_of_front h, drainOnto_eq (result :: found) rest,
      drainOnto_eq [result] rest, List.reverse_cons, List.append_assoc]
    rfl
  termination_by buffer.length

theorem drain_of_incomplete {buffer : Bytes} (h : next buffer = .incomplete) :
    drain buffer = ([], buffer) :=
  drainOnto_of_incomplete h []

theorem drain_of_front {buffer rest : Bytes} {result : Except WireError Frame}
    (h : Front buffer result rest) :
    drain buffer = (result :: (drain rest).1, (drain rest).2) := by
  rw [drain, drainOnto_of_front h, drainOnto_eq]
  rfl

/-- Draining finds at most as many frames and faults as there are bytes, and leaves nothing to find. -/
theorem drain_ends (buffer : Bytes) :
    (drain buffer).1.length ≤ buffer.length ∧ next (drain buffer).2 = .incomplete := by
  rcases front_of_next buffer with h | ⟨result, rest, h⟩
  · rw [drain_of_incomplete h]
    exact ⟨Nat.zero_le _, h⟩
  · have hlength := h.length_lt
    obtain ⟨hcount, hend⟩ := drain_ends rest
    rw [drain_of_front h]
    refine ⟨?_, hend⟩
    rw [List.length_cons]
    omega
  termination_by buffer.length

-- ---------------------------------------------------------------------------
-- Decoders
-- ---------------------------------------------------------------------------

/-- What can be asked of a decoder. -/
inductive Call where
  /-- Bytes have arrived. -/
  | push (bytes : Bytes)
  /-- The next frame is to be taken off the buffer. -/
  | next

/-- A decoder: the bytes that it holds, and the frames and faults that its calls have returned, in
order. -/
structure Decoder where
  buffer : Bytes
  results : List (Except WireError Frame)

/-- The bytes that arrive in the course of some calls. -/
def pushed (calls : List Call) : Bytes :=
  calls.flatMap fun
    | .push bytes => bytes
    | .next => []

/-- Whether a result reports bytes that start no frame. -/
def isGarbage : Except WireError Frame → Bool
  | .error (.badMagic _) => true
  | _ => false

/-- The results without the reports of garbage. -/
def sift (results : List (Except WireError Frame)) : List (Except WireError Frame) :=
  results.filter fun result => !isGarbage result

theorem sift_append (xs ys : List (Except WireError Frame)) : sift (xs ++ ys) = sift xs ++ sift ys :=
  List.filter_append ..

namespace Decoder

/-- A decoder that has received nothing. -/
def new : Decoder := ⟨[], []⟩

/-- Carries out a call.  Asking for a frame where there are too few bytes to tell changes nothing. -/
def call (d : Decoder) : Call → Decoder
  | .push bytes => { d with buffer := d.buffer ++ bytes }
  | .next =>
    match Frame.next d.buffer with
    | .incomplete => d
    | .frame frame rest => ⟨rest, d.results ++ [.ok frame]⟩
    | .fault error rest => ⟨rest, d.results ++ [.error error]⟩

/-- Carries out calls in order. -/
def run (d : Decoder) (calls : List Call) : Decoder :=
  calls.foldl call d

/-- What a decoder will have found once nothing is left to find: the frames and faults but for
garbage, and the bytes that remain. -/
def outcome (d : Decoder) : List (Except WireError Frame) × Bytes :=
  (sift (d.results ++ (drain d.buffer).1), (drain d.buffer).2)

/-- The decoder after more bytes have arrived. -/
def receive (d : Decoder) (more : Bytes) : Decoder :=
  { d with buffer := d.buffer ++ more }

variable (d : Decoder)

theorem call_of_incomplete (h : Frame.next d.buffer = .incomplete) : d.call .next = d := by
  rw [call, h]

theorem call_of_front {result : Except WireError Frame} {rest : Bytes}
    (h : Front d.buffer result rest) : d.call .next = ⟨rest, d.results ++ [result]⟩ := by
  rw [call, next_of_front h]
  cases result <;> rfl

theorem outcome_of_incomplete (h : Frame.next d.buffer = .incomplete) :
    d.outcome = (sift d.results, d.buffer) := by
  rw [outcome, drain_of_incomplete h, List.append_nil]

/-- What stands at the front is found first. -/
theorem outcome_of_front {result : Except WireError Frame} {rest : Bytes}
    (h : Front d.buffer result rest) : d.outcome = outcome ⟨rest, d.results ++ [result]⟩ := by
  rw [outcome, outcome, drain_of_front h, List.append_assoc]
  rfl

/-- Garbage at the front of a buffer does not count. -/
theorem outcome_dropWhile :
    outcome { d with buffer := d.buffer.dropWhile (· ≠ magic) } = d.outcome := by
  obtain ⟨buffer, results⟩ := d
  cases buffer with
  | nil => rfl
  | cons first tail =>
    by_cases hfirst : first = magic
    · rw [List.dropWhile_cons_of_neg (by simpa using hfirst)]
    · rw [List.dropWhile_cons_of_pos (by simpa using hfirst),
        outcome_of_front ⟨first :: tail, results⟩ (.garbage tail hfirst)]
      rw [outcome, outcome, sift_append, sift_append, sift_append]
      rw [show sift [Except.error (WireError.badMagic first)] = [] from rfl, List.append_nil]

/-- Asking for the next frame changes nothing about what will be found, whatever bytes are still to
come. -/
theorem outcome_next (more : Bytes) :
    ((d.call .next).receive more).outcome = (d.receive more).outcome := by
  rcases front_of_next d.buffer with h | ⟨result, rest, h⟩
  · rw [d.call_of_incomplete h]
  · rw [d.call_of_front h]
    rcases h.append more with hsame | hgarbage
    · exact (outcome_of_front (d.receive more) hsame).symm
    · rw [outcome_of_front (d.receive more) hgarbage]
      exact (outcome_dropWhile ⟨rest ++ more, d.results ++ [result]⟩).symm

/-- Neither do any number of calls: what will be found are the frames in the bytes that arrived. -/
theorem outcome_run (calls : List Call) :
    (d.run calls).outcome = (d.receive (pushed calls)).outcome := by
  induction calls generalizing d with
  | nil =>
    show d.outcome = outcome { d with buffer := d.buffer ++ [] }
    rw [List.append_nil]
  | cons c calls ih =>
    show ((d.call c).run calls).outcome = _
    rw [ih]
    cases c with
    | push bytes =>
      show outcome { d with buffer := (d.buffer ++ bytes) ++ pushed calls } = _
      rw [List.append_assoc]
      rfl
    | next => exact d.outcome_next (pushed calls)

/-- A decoder that is asked until nothing is left to find has found what is in the bytes that
arrived. -/
theorem run_ended {calls : List Call} (h : Frame.next (new.run calls).buffer = .incomplete) :
    (sift (new.run calls).results, (new.run calls).buffer) = outcome ⟨pushed calls, []⟩ := by
  rw [← outcome_of_incomplete _ h, outcome_run]
  rfl

/-- Asking as often as there is something to find drains the buffer. -/
theorem run_replicate (results : List (Except WireError Frame)) (buffer : Bytes) :
    run ⟨buffer, results⟩ (List.replicate (drain buffer).1.length .next) =
      ⟨(drain buffer).2, results ++ (drain buffer).1⟩ := by
  rcases front_of_next buffer with h | ⟨result, rest, h⟩
  · rw [drain_of_incomplete h, List.append_nil]
    rfl
  · have hlength := h.length_lt
    rw [drain_of_front h, List.length_cons, List.replicate_succ]
    show (call ⟨buffer, results⟩ .next).run _ = _
    rw [call_of_front _ h, run_replicate (results ++ [result]) rest, List.append_assoc]
    rfl
  termination_by buffer.length

end Decoder

-- ---------------------------------------------------------------------------
-- Frames and the bytes that they are written in
-- ---------------------------------------------------------------------------

theorem ofParts_eq_ok {crcHi crcLo lenHi lenLo tx rx kind : UInt8} {body : Bytes} {frame : Frame}
    (h : ofParts crcHi crcLo lenHi lenLo tx rx kind body = .ok frame) :
    body = frame.payload ++ [terminator] ∧ frame.tx = tx ∧ frame.rx = rx ∧ frame.kind.byte = kind ∧
      Bytes.uint16 crcHi crcLo = crc16 (lenHi :: lenLo :: tx :: rx :: kind :: frame.payload) := by
  unfold ofParts at h
  split at h
  · next last hlast =>
    split at h
    · cases h
    · next hterminator =>
      dsimp only at h
      split at h
      · cases h
      · next hcrc =>
        split at h
        · next found hkind =>
          cases h
          refine ⟨?_, rfl, rfl, FrameKind.byte_of_ofByte hkind, Decidable.not_not.mp hcrc⟩
          obtain ⟨payload, rfl⟩ := List.getLast?_eq_some_iff.mp hlast
          rw [List.dropLast_concat, Decidable.not_not.mp hterminator]
        · cases h
  · cases h

/-- A frame that is found takes up exactly the bytes that it is written in. -/
theorem bytes_of_next {buffer rest : Bytes} {frame : Frame}
    (h : next buffer = .frame frame rest) : frame.Fits ∧ buffer = frame.bytes ++ rest := by
  obtain ⟨result, hresult⟩ : ∃ result, result = Except.ok (ε := WireError) frame := ⟨_, rfl⟩
  have hfront : Front buffer result rest := by
    rw [front_iff_next, hresult]
    exact h
  cases hfront with
  | garbage => cases hresult
  | undersized => cases hresult
  | @claimed crcHi crcLo lenHi lenLo tx rx kind body _ long whole =>
    obtain ⟨rfl, rfl, rfl, rfl, hcrc⟩ := ofParts_eq_ok hresult
    -- the length counts what stands between it and the terminator
    have hlength : (Bytes.uint16 lenHi lenLo).toNat = 3 + frame.payload.length := by
      have hlong : 3 ≤ (Bytes.uint16 lenHi lenLo).toNat :=
        UInt16.le_iff_toNat_le.mp (UInt16.not_lt.mp long)
      rw [List.length_append, List.length_singleton] at whole
      omega
    have hfits : frame.Fits := by
      have hbound := (Bytes.uint16 lenHi lenLo).toNat_lt
      rw [Fits, maxFramePayload]
      omega
    have hcovered : frame.covered =
        lenHi :: lenLo :: frame.tx :: frame.rx :: frame.kind.byte :: frame.payload := by
      rw [covered, ← hlength, UInt16.ofNat_toNat, Bytes.ofUInt16_uint16]
      rfl
    refine ⟨hfits, ?_⟩
    rw [bytes, hcovered, ← hcrc, Bytes.ofUInt16_uint16]
    simp

/-- Bytes that start no frame do not count in front of others. -/
theorem Decoder.outcome_garbage {garbage : Bytes} (h : magic ∉ garbage) (rest : Bytes)
    (results : List (Except WireError Frame)) :
    outcome ⟨garbage ++ rest, results⟩ = outcome ⟨rest, results⟩ := by
  have hskipped : (garbage ++ rest).dropWhile (· ≠ magic) = rest.dropWhile (· ≠ magic) := by
    refine List.dropWhile_append_of_pos fun b hb => ?_
    simpa using ne_of_mem_of_not_mem hb h
  rw [← outcome_dropWhile ⟨garbage ++ rest, results⟩, ← outcome_dropWhile ⟨rest, results⟩]
  show outcome ⟨_, _⟩ = outcome ⟨_, _⟩
  rw [hskipped]

/-- Frames with garbage in front of any of them are found, each once and in order. -/
theorem Decoder.outcome_frames {parts : List (Bytes × Frame)}
    (h : ∀ part ∈ parts, magic ∉ part.1 ∧ part.2.Fits) (results : List (Except WireError Frame)) :
    outcome ⟨parts.flatMap fun part => part.1 ++ part.2.bytes, results⟩ =
      (sift results ++ parts.map fun part => .ok part.2, []) := by
  induction parts generalizing results with
  | nil =>
    rw [List.flatMap_nil, outcome_of_incomplete _ rfl, List.map_nil, List.append_nil]
  | cons part parts ih =>
    obtain ⟨⟨hgarbage, hfits⟩, hparts⟩ := List.forall_mem_cons.mp h
    have hfront : Front (part.2.bytes ++ parts.flatMap fun part => part.1 ++ part.2.bytes)
        (.ok part.2) (parts.flatMap fun part => part.1 ++ part.2.bytes) :=
      front_iff_next.mpr (next_bytes_append hfits _)
    rw [List.flatMap_cons, List.append_assoc, outcome_garbage hgarbage, outcome_of_front _ hfront,
      ih hparts, sift_append, List.map_cons, List.append_assoc]
    rfl

-- ---------------------------------------------------------------------------
-- Any way of arriving
-- ---------------------------------------------------------------------------

/-- However the same bytes arrive, and however often a decoder is asked in between, once nothing is left
to find it has found the same frames, the same faults but for garbage, and holds the same bytes.  A
frame that is found takes up exactly the bytes that it is written in; frames written one after the
other, with garbage in front of any of them, are found in order and leave nothing behind.  Each call
that finds something makes the buffer shorter and any other changes nothing, so that asking until
nothing is left to find, which is what a link does with the bytes it receives, comes to an end after
at most as many calls as there are bytes. -/
theorem decoding_incremental :
    (∀ first second : List Call, pushed first = pushed second →
      next (Decoder.new.run first).buffer = .incomplete →
      next (Decoder.new.run second).buffer = .incomplete →
      sift (Decoder.new.run first).results = sift (Decoder.new.run second).results ∧
        (Decoder.new.run first).buffer = (Decoder.new.run second).buffer) ∧
    (∀ (buffer rest : Bytes) (frame : Frame), next buffer = .frame frame rest →
      ∃ bytes, frame.encode = .ok bytes ∧ buffer = bytes ++ rest) ∧
    (∀ (parts : List (Bytes × Frame)) (calls : List Call),
      (∀ part ∈ parts, magic ∉ part.1 ∧ part.2.encode = .ok part.2.bytes) →
      pushed calls = (parts.flatMap fun part => part.1 ++ part.2.bytes) →
      next (Decoder.new.run calls).buffer = .incomplete →
      sift (Decoder.new.run calls).results = (parts.map fun part => .ok part.2) ∧
        (Decoder.new.run calls).buffer = []) ∧
    (∀ d : Decoder, next d.buffer = .incomplete ∧ d.call .next = d ∨
      ∃ result, (d.call .next).results = d.results ++ [result] ∧
        (d.call .next).buffer.length < d.buffer.length) ∧
    ∀ d : Decoder, next (drain d.buffer).2 = .incomplete ∧ ∃ count ≤ d.buffer.length,
      d.run (List.replicate count .next) = ⟨(drain d.buffer).2, d.results ++ (drain d.buffer).1⟩ := by
  refine ⟨?_, ?_, ?_, ?_, ?_⟩
  · intro first second hpushed hfirst hsecond
    have hfound := Decoder.run_ended hfirst
    rw [hpushed, ← Decoder.run_ended hsecond] at hfound
    exact Prod.mk.inj hfound
  · intro buffer rest frame h
    obtain ⟨hfits, hbytes⟩ := bytes_of_next h
    exact ⟨frame.bytes, encode_of_fits hfits, hbytes⟩
  · intro parts calls hparts hpushed hended
    have hfits : ∀ part ∈ parts, magic ∉ part.1 ∧ part.2.Fits := fun part hpart =>
      ⟨(hparts part hpart).1, (encode_eq_ok_iff.mp (hparts part hpart).2).1⟩
    have hfound := Decoder.run_ended hended
    rw [hpushed, Decoder.outcome_frames hfits] at hfound
    exact Prod.mk.inj hfound
  · intro d
    rcases front_of_next d.buffer with h | ⟨result, rest, h⟩
    · exact .inl ⟨h, d.call_of_incomplete h⟩
    · refine .inr ⟨result, ?_⟩
      rw [d.call_of_front h]
      exact ⟨rfl, h.length_lt⟩
  · intro d
    obtain ⟨hcount, hended⟩ := drain_ends d.buffer
    exact ⟨hended, _, hcount, Decoder.run_replicate d.results d.buffer⟩

/-- Garbage is reported once for each piece in which it is found. -/
example : (Decoder.new.run [.push [1], .next, .push [2], .next]).results =
    [.error (.badMagic 1), .error (.badMagic 2)] := rfl

example : (Decoder.new.run [.push [1], .push [2], .next, .next]).results =
    [.error (.badMagic 1)] := rfl

end Switchboard.Frame
