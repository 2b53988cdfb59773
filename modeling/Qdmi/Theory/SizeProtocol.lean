import Qdmi.Core.Call

/-!
# The Size Protocol

What a caller may expect of a query: it asks for the size with a null pointer,
allocates, and asks again.

`Answers` is that expectation for a query with a known value. It says what the
probe reports, what a buffer that is large enough holds afterwards and that a
short one is refused untouched, so a query that answers is determined by its
value as far as a caller can tell. A buffer of no bytes is left out of the
second field: most queries refuse it whatever they have to say.

The three property macros answer with the bytes they are given, and each of
them passes on whatever the code behind it does. A column of macros is
therefore handled one macro at a time, and a query that consists of such a
column either answers or fails for every buffer.

## Main definitions

* `Answers`: A query has a value.
* `Fails`: A query does not succeed on a null pointer.
* `AnswersOrFails`: One of the two.
* `FollowsSizes`: What a caller gets who probes and then calls.
* `RefusesEmpty`: A query refuses a buffer of no bytes.
* `Delivers`: A query delivers some bytes and writes nothing behind them.

## Theorems

* `respond_answers`: The common body of the queries has the bytes it writes as
  its value.
* `guarded_answers`, `guarded_answersOrFails`: The guard on the buffer.
* `addSingleValueProperty_answers`, `addListProperty_answers`,
  `addStringProperty_answers`: So do the macros, for their property.
* `addSingleValueProperty_answersOrFails`, `addListProperty_answersOrFails`,
  `addStringProperty_answersOrFails`: A macro before a column of macros.
* `answers_success`: What a successful call hands out.
* `followsSizes_of_answersOrFails`, `followsSizes_guarded`,
  `followsSizes_of_thrown`: Calling with the size a probe reported.
* `delivers_guarded`, `delivers_respond`: What delivers its value.
-/

namespace Qdmi

/-- A query has a value: the probe reports its size, a buffer that is large
    enough starts with it afterwards, and a short one is refused untouched. -/
structure Answers (q : OutArgs → Except Fault Reply) (bytes : List UInt8) : Prop where
  probe : ∀ size ret, q ⟨size, none, ret⟩ = .ok {
    status := .success, sizeRet := if ret then some bytes.length else none }
  fits : ∀ buf ret, 0 < buf.length → bytes.length ≤ buf.length →
    ∃ rest, bytes.length + rest.length = buf.length ∧ q ⟨buf.length, some buf, ret⟩ = .ok {
      status := .success, value := some (bytes ++ rest),
      sizeRet := if ret then some bytes.length else none }
  short : ∀ buf ret, buf.length < bytes.length → ∃ sizeRet,
    q ⟨buf.length, some buf, ret⟩ = .ok {
      status := .errorInvalidargument, value := some buf, sizeRet := sizeRet }

/-- A query does not succeed on a null pointer. -/
def Fails (q : OutArgs → Except Fault Reply) : Prop :=
  ∀ size ret reply, q ⟨size, none, ret⟩ = .ok reply → reply.status ≠ .success

/-- A query has a value or does not succeed. -/
def AnswersOrFails (q : OutArgs → Except Fault Reply) : Prop := (∃ bytes, Answers q bytes) ∨ Fails q

theorem fails_reject {status : Status} (h : status ≠ .success) :
    Fails (fun out => .ok (out.reject status)) := by
  intro size ret reply hreply
  rw [← Except.ok.inj hreply]
  exact h

theorem answersOrFails_reject {status : Status} (h : status ≠ .success) :
    AnswersOrFails (fun out => .ok (out.reject status)) := Or.inr (fails_reject h)

/-- A query that faults whatever the buffer does not succeed. -/
theorem fails_fault (fault : Fault) : Fails (fun _ => .error fault) := by
  intro size ret reply hreply
  exact absurd hreply (by simp only [reduceCtorEq, not_false_eq_true])

theorem answersOrFails_fault (fault : Fault) : AnswersOrFails (fun _ => .error fault) :=
  Or.inr (fails_fault fault)

theorem answersOrFails_ite {c : Prop} [Decidable c] {q q' : OutArgs → Except Fault Reply}
    (hq : c → AnswersOrFails q) (hq' : ¬ c → AnswersOrFails q') :
    AnswersOrFails (fun out => if c then q out else q' out) := by
  by_cases hc : c
  · simpa only [if_pos hc] using hq hc
  · simpa only [if_neg hc] using hq' hc

/-- What a query does on a buffer of its own length, when its body writes the
    bytes `f` gives for that length. -/
theorem respond_answers {bytes : List UInt8} {need : Nat}
    (write : OutArgs → Cursor → Except Fault Cursor) (rest : Nat → List UInt8)
    (hneed : bytes.length = need)
    (hwrite : ∀ buf ret, 0 < buf.length → bytes.length ≤ buf.length →
      bytes.length + (rest buf.length).length ≤ buf.length ∧
      write ⟨buf.length, some buf, ret⟩ (Cursor.start buf) =
        (Cursor.start buf).puts (bytes ++ rest buf.length)) :
    Answers (fun out => respond out need (write out)) bytes := by
  subst hneed
  refine ⟨fun size ret => rfl, fun buf ret hpos hle => ?_, fun buf ret hlt => ?_⟩
  · rcases hwrite buf ret hpos hle with ⟨hrest, hputs⟩
    -- What is written ends inside the buffer.
    have hfits : (Cursor.start buf).pos + (bytes ++ rest buf.length).length ≤
        (Cursor.start buf).buf.length := by
      simp only [Cursor.start, List.length_append]
      omega
    refine ⟨rest buf.length ++ buf.drop (bytes.length + (rest buf.length).length), ?_, ?_⟩
    · simp only [List.length_append, List.length_drop]
      omega
    · simp only [respond, if_neg (Nat.not_lt.mpr hle), hputs, Cursor.puts_ok _ _ hfits, bind,
        Except.bind, Cursor.written_start, List.length_append, List.append_assoc,
        OutArgs.reported]
  · exact ⟨none, by simp only [respond, if_pos hlt, OutArgs.reject]⟩

/-- A body that writes its value and nothing else. -/
theorem respond_puts_answers {bytes : List UInt8} {need : Nat}
    {write : OutArgs → Cursor → Except Fault Cursor} (hneed : bytes.length = need)
    (hwrite : ∀ buf ret, write ⟨buf.length, some buf, ret⟩ (Cursor.start buf) =
      (Cursor.start buf).puts bytes) :
    Answers (fun out => respond out need (write out)) bytes := by
  refine respond_answers write (fun _ => []) hneed (fun buf ret _ hle => ⟨?_, ?_⟩)
  · simpa only [List.length_nil, Nat.add_zero] using hle
  · rw [hwrite, List.append_nil]

/-- The guard of a property query stops a buffer of no bytes only. When the
    value has bytes, such a buffer is too short anyway. -/
theorem guarded_answers {q : OutArgs → Except Fault Reply} {bytes : List UInt8}
    (hq : Answers q bytes) {invalid : Bool} (hvalid : invalid = false) :
    Answers (fun out => if (out.degenerate || invalid) = true then
      .ok (out.reject .errorInvalidargument) else q out) bytes := by
  subst hvalid
  refine ⟨fun size ret => ?_, fun buf ret hpos hle => ?_, fun buf ret hlt => ?_⟩
  · simp only [OutArgs.degenerate, Option.isSome_none, Bool.false_and, Bool.or_false,
      Bool.false_eq_true, if_false]
    exact hq.probe size ret
  · -- A buffer with room is not refused.
    have hz : (buf.length == 0) = false := by simpa using Nat.ne_of_gt hpos
    simp only [OutArgs.degenerate, hz, Bool.and_false, Bool.or_false, Bool.false_eq_true, if_false]
    exact hq.fits buf ret hpos hle
  · rcases Nat.eq_zero_or_pos buf.length with hz | hpos
    · -- An empty buffer is refused before the query.
      refine ⟨none, ?_⟩
      simp only [OutArgs.degenerate, Option.isSome_some, hz, beq_self_eq_true, Bool.true_and,
        Bool.or_false, if_true, OutArgs.reject]
    · have hz : (buf.length == 0) = false := by simpa using Nat.ne_of_gt hpos
      simp only [OutArgs.degenerate, hz, Bool.and_false, Bool.or_false, Bool.false_eq_true,
        if_false]
      exact hq.short buf ret hlt

/-- The guard of a property query before a column of macros. -/
theorem guarded_answersOrFails {q : OutArgs → Except Fault Reply} (hq : AnswersOrFails q)
    (invalid : Bool) :
    AnswersOrFails (fun out => if (out.degenerate || invalid) = true then
      .ok (out.reject .errorInvalidargument) else q out) := by
  rcases hinv : invalid with _ | _
  · rcases hq with ⟨bytes, hq⟩ | hq
    · exact Or.inl ⟨bytes, guarded_answers hq rfl⟩
    · refine Or.inr (fun size ret reply hreply => hq size ret reply ?_)
      simpa only [OutArgs.degenerate, Option.isSome_none, Bool.false_and, Bool.or_false,
        Bool.false_eq_true, if_false] using hreply
  · refine Or.inr (fun size ret reply hreply => ?_)
    simp only [Bool.or_true, if_true] at hreply
    rw [← Except.ok.inj hreply]
    exact fun hc => absurd hc (by simp only [OutArgs.reject, reduceCtorEq, not_false_eq_true])

/-! ## The property macros -/

theorem addSingleValueProperty_answers (name : Nat) (bytes : List UInt8)
    (rest : OutArgs → Except Fault Reply) :
    Answers (fun out => addSingleValueProperty name bytes name out (rest out)) bytes := by
  simp only [addSingleValueProperty, if_true]
  exact respond_puts_answers rfl (fun _ _ => rfl)

theorem addListProperty_answers (name : Nat) (elems : List (List UInt8))
    (rest : OutArgs → Except Fault Reply) :
    Answers (fun out => addListProperty name elems name out (rest out)) elems.flatten := by
  simp only [addListProperty, if_true]
  exact respond_puts_answers rfl (fun _ _ => rfl)

/-- `strncpy` pads the buffer with zeros, so what lies behind the terminator
    is not what the caller left there. -/
theorem addStringProperty_answers (name : Nat) (str : CString)
    (rest : OutArgs → Except Fault Reply) :
    Answers (fun out => addStringProperty name str name out (rest out)) (str.chars ++ [0]) := by
  have hlen : (str.chars ++ [0]).length = str.chars.length + 1 := by
    rw [List.length_append, List.length_singleton]
  simp only [addStringProperty, if_true]
  refine respond_answers (fun out => str.writeTo out.size)
    (fun size => List.replicate (size - str.chars.length - 1) 0) hlen
    (fun buf ret _ hle => ⟨?_, ?_⟩)
  · rw [List.length_replicate]
    omega
  · rw [hlen] at hle
    -- The terminator and the padding are one run of zeros.
    have hpad : List.replicate (buf.length - str.chars.length) (0 : UInt8) =
        List.replicate (buf.length - str.chars.length - 1) 0 ++ [0] := by
      rw [← List.replicate_succ']
      congr 1
      omega
    have hzeros : [0] ++ List.replicate (buf.length - str.chars.length - 1) (0 : UInt8) =
        List.replicate (buf.length - str.chars.length - 1) 0 ++ [0] := by
      rw [← List.replicate_succ', List.singleton_append, ← List.replicate_succ]
    simp only [CString.writeTo, List.take_of_length_le (Nat.le_of_succ_le hle), hpad, bind]
    rw [← List.append_assoc, Cursor.puts_patchBack, List.append_assoc, List.append_assoc, hzeros]

theorem addSingleValueProperty_answersOrFails {name prop : Nat} {bytes : List UInt8}
    {rest : OutArgs → Except Fault Reply} (h : AnswersOrFails rest) :
    AnswersOrFails (fun out => addSingleValueProperty name bytes prop out (rest out)) := by
  by_cases hp : prop = name
  · subst hp
    exact Or.inl ⟨bytes, addSingleValueProperty_answers prop bytes rest⟩
  · simpa only [addSingleValueProperty, if_neg hp] using h

theorem addListProperty_answersOrFails {name prop : Nat} {elems : List (List UInt8)}
    {rest : OutArgs → Except Fault Reply} (h : AnswersOrFails rest) :
    AnswersOrFails (fun out => addListProperty name elems prop out (rest out)) := by
  by_cases hp : prop = name
  · subst hp
    exact Or.inl ⟨_, addListProperty_answers prop elems rest⟩
  · simpa only [addListProperty, if_neg hp] using h

theorem addStringProperty_answersOrFails {name prop : Nat} {str : CString}
    {rest : OutArgs → Except Fault Reply} (h : AnswersOrFails rest) :
    AnswersOrFails (fun out => addStringProperty name str prop out (rest out)) := by
  by_cases hp : prop = name
  · subst hp
    exact Or.inl ⟨_, addStringProperty_answers prop str rest⟩
  · simpa only [addStringProperty, if_neg hp] using h

/-! ## Probing and calling -/

/-- What a caller gets who asks for the size first and then calls with a
    buffer. A buffer of no bytes is refused, whatever size was reported. -/
def FollowsSizes (probe call : OutArgs → Except Fault (Except Exn Reply)) : Prop :=
  ∀ size reply n, probe ⟨size, none, true⟩ = .ok (.ok reply) → reply.status = .success →
    reply.sizeRet = some n → ∃ value : List UInt8, value.length = n ∧ ∀ (buf : Buffer) (ret : Bool),
      (n ≤ buf.length ∧ 0 < buf.length → ∃ rest sizeRet,
        (value ++ rest).length = buf.length ∧ call ⟨buf.length, some buf, ret⟩ =
          .ok (.ok { status := .success, value := some (value ++ rest), sizeRet := sizeRet })) ∧
      (buf.length < n ∨ buf.length = 0 → ∃ sizeRet, call ⟨buf.length, some buf, ret⟩ =
        .ok (.ok { status := .errorInvalidargument, value := some buf, sizeRet := sizeRet }))

/-- A query refuses a buffer of no bytes. -/
def RefusesEmpty (q : OutArgs → Except Fault Reply) : Prop :=
  ∀ ret, ∃ sizeRet, q ⟨0, some [], ret⟩ =
    .ok { status := .errorInvalidargument, value := some [], sizeRet := sizeRet }

/-- A successful call hands out a buffer that starts with the value. -/
theorem answers_success {q : OutArgs → Except Fault Reply} {bytes : List UInt8}
    (hq : Answers q bytes) (hne : bytes ≠ []) {buf : Buffer} {ret : Bool} {reply : Reply}
    (hreply : q ⟨buf.length, some buf, ret⟩ = .ok reply) (hsucc : reply.status = .success) :
    ∃ rest, reply.value = some (bytes ++ rest) := by
  have hpos := List.length_pos_iff.mpr hne
  by_cases hle : bytes.length ≤ buf.length
  · rcases hq.fits buf ret (by omega) hle with ⟨rest, _, hok⟩
    rw [hok, Except.ok.injEq] at hreply
    exact ⟨rest, by rw [← hreply]⟩
  · -- A short buffer is refused.
    rcases hq.short buf ret (by omega) with ⟨sizeRet, hok⟩
    rw [hok, Except.ok.injEq] at hreply
    rw [← hreply] at hsucc
    exact absurd hsucc (by simp only [reduceCtorEq, not_false_eq_true])

theorem refusesEmpty_of_answers {q : OutArgs → Except Fault Reply} {bytes : List UInt8}
    (hq : Answers q bytes) (hne : bytes ≠ []) : RefusesEmpty q :=
  fun ret => hq.short [] ret (List.length_pos_iff.mpr hne)

/-- The guard refuses a buffer of no bytes before anything else happens. -/
theorem refusesEmpty_guarded (q : OutArgs → Except Fault Reply) (invalid : Bool) :
    RefusesEmpty (fun out => if (out.degenerate || invalid) = true then
      .ok (out.reject .errorInvalidargument) else q out) :=
  fun _ => ⟨none, rfl⟩

/-- A query with a value that refuses the empty buffer is called with the size
    it reports. -/
theorem followsSizes_of_answers {q : OutArgs → Except Fault Reply} {bytes : List UInt8}
    {probe call : OutArgs → Except Fault (Except Exn Reply)} (hq : Answers q bytes)
    (hempty : RefusesEmpty q) (hprobe : ∀ out, probe out = (q out).map .ok)
    (hcall : ∀ out, call out = (q out).map .ok) : FollowsSizes probe call := by
  intro size reply n hp _ hn
  -- The probe reports the number of bytes of the value.
  rw [hprobe, hq.probe, Except.map, Except.ok.injEq, Except.ok.injEq] at hp
  rw [← hp, if_pos rfl, Option.some.injEq] at hn
  refine ⟨bytes, hn, fun buf ret => ⟨fun hfit => ?_, fun hshort => ?_⟩⟩
  · rcases hq.fits buf ret hfit.2 (by omega) with ⟨rest, hlen, hok⟩
    refine ⟨rest, _, ?_, by rw [hcall, hok, Except.map]⟩
    rw [List.length_append]
    exact hlen
  · by_cases hz : buf.length = 0
    · have hnil : buf = [] := List.length_eq_zero_iff.mp hz
      rcases hempty ret with ⟨sizeRet, hok⟩
      subst hnil
      exact ⟨sizeRet, by rw [hcall, List.length_nil, hok, Except.map]⟩
    · rcases hq.short buf ret (by omega) with ⟨sizeRet, hok⟩
      exact ⟨sizeRet, by rw [hcall, hok, Except.map]⟩

/-- A probe that does not succeed promises nothing. -/
theorem followsSizes_of_fails {q : OutArgs → Except Fault Reply}
    {probe : OutArgs → Except Fault (Except Exn Reply)} (hq : Fails q)
    (hprobe : ∀ out, probe out = (q out).map .ok)
    (call : OutArgs → Except Fault (Except Exn Reply)) : FollowsSizes probe call := by
  intro size reply n hp hsuccess _
  rw [hprobe] at hp
  rcases hqok : q ⟨size, none, true⟩ with e | r
  · rw [hqok] at hp
    exact absurd hp (by simp only [Except.map, reduceCtorEq, not_false_eq_true])
  · rw [hqok, Except.map, Except.ok.injEq, Except.ok.injEq] at hp
    rw [← hp] at hsuccess
    exact absurd hsuccess (hq size true r hqok)

theorem followsSizes_of_answersOrFails {q : OutArgs → Except Fault Reply}
    {probe call : OutArgs → Except Fault (Except Exn Reply)} (hq : AnswersOrFails q)
    (hempty : RefusesEmpty q) (hprobe : ∀ out, probe out = (q out).map .ok)
    (hcall : ∀ out, call out = (q out).map .ok) : FollowsSizes probe call := by
  rcases hq with ⟨bytes, hq⟩ | hq
  · exact followsSizes_of_answers hq hempty hprobe hcall
  · exact followsSizes_of_fails hq hprobe call

/-- The same behind the guard on the buffer. -/
theorem followsSizes_guarded {q : OutArgs → Except Fault Reply}
    {probe call : OutArgs → Except Fault (Except Exn Reply)} (hq : AnswersOrFails q)
    (hprobe : ∀ out, probe out = (q out).map .ok) (hcall : ∀ out, call out = (q out).map .ok)
    (invalid : Bool) :
    FollowsSizes
      (fun out => if (out.degenerate || invalid) = true then
        .ok (.ok (out.reject .errorInvalidargument)) else probe out)
      (fun out => if (out.degenerate || invalid) = true then
        .ok (.ok (out.reject .errorInvalidargument)) else call out) := by
  have hlift : ∀ {f : OutArgs → Except Fault (Except Exn Reply)}, (∀ out, f out = (q out).map .ok) →
      ∀ out : OutArgs, (if (out.degenerate || invalid) = true then
        .ok (.ok (out.reject .errorInvalidargument)) else f out) =
      Except.map Except.ok (if (out.degenerate || invalid) = true then
        .ok (out.reject .errorInvalidargument) else q out) := by
    intro f hf out
    split
    · rfl
    · exact hf out
  exact followsSizes_of_answersOrFails (guarded_answersOrFails hq invalid)
    (refusesEmpty_guarded q invalid) (hlift hprobe) (hlift hcall)

/-- A probe that throws promises nothing. -/
theorem followsSizes_of_thrown {probe call : OutArgs → Except Fault (Except Exn Reply)} {e : Exn}
    (hprobe : ∀ out, probe out = .ok (.error e)) (invalid : Bool) :
    FollowsSizes
      (fun out => if (out.degenerate || invalid) = true then
        .ok (.ok (out.reject .errorInvalidargument)) else probe out) call := by
  intro size reply n hp hsuccess _
  dsimp only at hp
  split at hp
  · rw [Except.ok.injEq, Except.ok.injEq] at hp
    rw [← hp] at hsuccess
    exact absurd hsuccess (by simp only [OutArgs.reject, reduceCtorEq, not_false_eq_true])
  · rw [hprobe] at hp
    exact absurd hp (by simp only [Except.ok.injEq, reduceCtorEq, not_false_eq_true])

/-! ## Exact bytes -/

/-- A query delivers some bytes: a probe reports how many, and a buffer with
    room for them begins with them afterwards and is otherwise as it was. -/
structure Delivers (q : OutArgs → Except Fault (Except Exn Reply)) (bytes : List UInt8) :
    Prop where
  probe : ∀ size ret, q ⟨size, none, ret⟩ = .ok (.ok {
    status := .success, sizeRet := if ret then some bytes.length else none })
  fits : ∀ buf ret, bytes.length ≤ buf.length → q ⟨buf.length, some buf, ret⟩ = .ok (.ok {
    status := .success, value := some (bytes ++ buf.drop bytes.length),
    sizeRet := if ret then some bytes.length else none })

/-- The guard on the buffer does not stop a query that has bytes to deliver. -/
theorem delivers_guarded {q : OutArgs → Except Fault Reply} {bytes : List UInt8} (hne : bytes ≠ [])
    (hprobe : ∀ size ret, q ⟨size, none, ret⟩ = .ok {
      status := .success, sizeRet := if ret then some bytes.length else none })
    (hfits : ∀ buf ret, bytes.length ≤ buf.length → q ⟨buf.length, some buf, ret⟩ = .ok {
      status := .success, value := some (bytes ++ buf.drop bytes.length),
      sizeRet := if ret then some bytes.length else none }) :
    Delivers (fun out => Except.map Except.ok (if (out.degenerate || false) = true then
      .ok (out.reject .errorInvalidargument) else q out)) bytes := by
  refine ⟨fun size ret => ?_, fun buf ret hle => ?_⟩
  · simp only [OutArgs.degenerate, Option.isSome_none, Bool.false_and, Bool.or_false,
      Bool.false_eq_true, if_false, hprobe, Except.map]
  · have hpos := List.length_pos_iff.mpr hne
    have hz : (buf.length == 0) = false := beq_eq_false_iff_ne.mpr (by omega)
    simp only [OutArgs.degenerate, hz, Bool.and_false, Bool.or_false, Bool.false_eq_true, if_false,
      hfits buf ret hle, Except.map]

/-- The common body of the queries delivers the bytes it writes. -/
theorem delivers_respond {bytes : List UInt8} {need : Nat} {write : Cursor → Except Fault Cursor}
    (hne : bytes ≠ []) (hneed : bytes.length = need)
    (hwrite : ∀ buf, write (Cursor.start buf) = (Cursor.start buf).puts bytes) :
    Delivers (fun out => Except.map Except.ok (if (out.degenerate || false) = true then
      .ok (out.reject .errorInvalidargument) else respond out need write)) bytes := by
  subst hneed
  refine delivers_guarded hne (fun size ret => rfl) (fun buf ret hle => ?_)
  have hfits : (Cursor.start buf).pos + bytes.length ≤ (Cursor.start buf).buf.length := by
    simp only [Cursor.start]
    omega
  simp only [respond, if_neg (Nat.not_lt.mpr hle), hwrite, Cursor.puts_ok _ _ hfits, bind,
    Except.bind, Cursor.written_start, OutArgs.reported]

end Qdmi
