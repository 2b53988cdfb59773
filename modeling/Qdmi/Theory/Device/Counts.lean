import Qdmi.Theory.Device.Sparse

/-!
# Shots and Counts

The shots of a result are handed out as one string, and counted.

Every query that asks for counts builds the histogram anew. It is the same each
time: a map from shots to numbers is sorted by its keys, and after some shots it
has exactly those as keys, each with the number of times it has occurred.
`Tallies` says that of a map and a list of shots, one more shot keeps it,
`tallies_bump`, and so does the loop. Keys and values therefore belong together
even though two calls have computed them, and the only thing that can differ is
whether there was memory.

## Main definitions

* `Tallies`: A map counts some shots.
* `IsHistogram`: What keys and values say about some shots.
* `DeliversInMemory`: A query delivers some bytes unless it runs out of memory.

## Theorems

* `tallies_bump`, `tallies_histogram`: One more shot, and all of them.
* `isHistogram_of_tallies`: What is written for a map.
* `histogram_delivered`: Keys and values are the histogram of the shots.
* `shots_delivered`: The shots come back out of their string.
-/

namespace Qdmi

variable {R : Type}

/-! ## Counting -/

/-- A map from shots to numbers counts some shots. -/
structure Tallies (shots : List (List UInt8)) (hist : List (List UInt8 × Nat)) : Prop where
  /-- The keys are in strictly increasing order. -/
  ascending : (hist.map Prod.fst).Pairwise (· < ·)
  /-- The keys are the shots. -/
  keys : ∀ key, key ∈ hist.map Prod.fst ↔ key ∈ shots
  /-- The number of a key is how often it occurs. -/
  counts : ∀ entry ∈ hist, entry.2 = shots.count entry.1
  /-- The numbers add up to the number of shots. -/
  total : (hist.map Prod.snd).sum = shots.length

theorem tallies_nil : Tallies [] [] :=
  ⟨List.Pairwise.nil, fun _ => Iff.rfl, fun _ h => absurd h List.not_mem_nil, rfl⟩

/-- Counting a shot keeps the keys in order. The induction is on the map, and
    the shot goes in front of the first key that is greater. -/
theorem bump_ascending {shot : List UInt8} {hist : List (List UInt8 × Nat)}
    (h : (hist.map Prod.fst).Pairwise (· < ·)) :
    ((bump shot hist).map Prod.fst).Pairwise (· < ·) := by
  induction hist with
  | nil => exact List.pairwise_singleton _ _
  | cons entry rest ih =>
      rcases entry with ⟨key, n⟩
      have hsplit := List.pairwise_cons.mp h
      unfold bump
      split
      · exact h
      split
      · -- The shot is less than the first key, and so than all of them.
        rename_i hlt
        rw [List.map_cons, List.pairwise_cons]
        refine ⟨fun other hother => ?_, h⟩
        rcases List.mem_cons.mp hother with rfl | hrest
        · exact hlt
        · exact List.lt_trans hlt (hsplit.1 other hrest)
      · -- It goes behind the first key, which stays the least.
        rename_i hne hge
        rw [List.map_cons, List.pairwise_cons]
        refine ⟨fun other hother => ?_, ih hsplit.2⟩
        rcases (bump_keys shot rest other).mp hother with rfl | hrest
        · exact Std.lt_of_le_of_ne hge (Ne.symm hne)
        · exact hsplit.1 other hrest

/-- An entry of the map behind a shot is its own, or was there before. -/
theorem mem_bump {shot : List UInt8} {hist : List (List UInt8 × Nat)}
    (h : (hist.map Prod.fst).Pairwise (· < ·)) {entry : List UInt8 × Nat}
    (hentry : entry ∈ bump shot hist) :
    (entry = (shot, 1) ∧ shot ∉ hist.map Prod.fst) ∨
      (∃ n, entry = (shot, n + 1) ∧ (shot, n) ∈ hist) ∨ (entry.1 ≠ shot ∧ entry ∈ hist) := by
  induction hist with
  | nil => exact Or.inl ⟨List.mem_singleton.mp hentry, List.not_mem_nil⟩
  | cons front rest ih =>
      rcases front with ⟨key, n⟩
      have hsplit := List.pairwise_cons.mp h
      unfold bump at hentry
      split at hentry
      · rename_i heq
        rcases List.mem_cons.mp hentry with rfl | hrest
        · exact Or.inr (Or.inl ⟨n, by rw [heq], heq ▸ List.mem_cons_self⟩)
        · -- The other keys are greater than this one.
          refine Or.inr (Or.inr ⟨fun hsame => ?_, List.mem_cons_of_mem _ hrest⟩)
          have hlt := hsplit.1 entry.1 (List.mem_map_of_mem hrest)
          rw [hsame, heq] at hlt
          exact List.lt_irrefl _ hlt
      split at hentry
      · rename_i hlt
        have hnew : shot ∉ ((key, n) :: rest).map Prod.fst := by
          intro hmem
          rcases List.mem_cons.mp hmem with hkey | hrest
          · exact List.lt_irrefl _ (hkey ▸ hlt)
          · exact List.lt_irrefl _ (List.lt_trans hlt (hsplit.1 shot hrest))
        rcases List.mem_cons.mp hentry with rfl | hrest
        · exact Or.inl ⟨rfl, hnew⟩
        · refine Or.inr (Or.inr ⟨fun hsame => hnew ?_, hrest⟩)
          rw [← hsame]
          exact List.mem_map_of_mem hrest
      · rename_i hne _
        rcases List.mem_cons.mp hentry with rfl | hrest
        · exact Or.inr (Or.inr ⟨Ne.symm hne, List.mem_cons_self⟩)
        · rcases ih hsplit.2 hrest with ⟨rfl, hnew⟩ | ⟨m, rfl, hmem⟩ | ⟨hother, hmem⟩
          · refine Or.inl ⟨rfl, fun hkey => ?_⟩
            rcases List.mem_cons.mp hkey with hkey | hkey
            · exact hne hkey
            · exact hnew hkey
          · exact Or.inr (Or.inl ⟨m, rfl, List.mem_cons_of_mem _ hmem⟩)
          · exact Or.inr (Or.inr ⟨hother, List.mem_cons_of_mem _ hmem⟩)

theorem sum_bump (shot : List UInt8) (hist : List (List UInt8 × Nat)) :
    ((bump shot hist).map Prod.snd).sum = (hist.map Prod.snd).sum + 1 := by
  induction hist with
  | nil => rfl
  | cons entry rest ih =>
      rcases entry with ⟨key, n⟩
      unfold bump
      split
      · simp only [List.map_cons, List.sum_cons]
        omega
      split
      · simp only [List.map_cons, List.sum_cons]
        omega
      · simp only [List.map_cons, List.sum_cons, ih]
        omega

/-- One more shot. -/
theorem tallies_bump {shots : List (List UInt8)} {hist : List (List UInt8 × Nat)}
    (h : Tallies shots hist) (shot : List UInt8) :
    Tallies (shots ++ [shot]) (bump shot hist) := by
  refine ⟨bump_ascending h.ascending, fun key => ?_, fun entry hentry => ?_, ?_⟩
  · rw [bump_keys, h.keys, List.mem_append, List.mem_singleton]
    exact or_comm
  · rw [List.count_append]
    rcases mem_bump h.ascending hentry with ⟨rfl, hnew⟩ | ⟨n, rfl, hmem⟩ | ⟨hother, hmem⟩
    · rw [h.keys] at hnew
      rw [List.count_eq_zero.mpr hnew, List.count_singleton_self]
    · rw [← h.counts _ hmem, List.count_singleton_self]
    · rw [h.counts _ hmem, List.count_eq_zero.mpr (fun hmem => hother (List.mem_singleton.mp hmem)),
        Nat.add_zero]
  · rw [sum_bump, h.total, List.length_append, List.length_singleton]

/-- All of the shots. The induction is on the shots still to be counted. -/
theorem tallies_histogram {mem : Alloc} {shots : List (List UInt8)} :
    ∀ {k : Nat} {done : List (List UInt8)} {hist hist' : List (List UInt8 × Nat)},
      Tallies done hist → histogram mem k shots hist = .ok hist' →
        Tallies (done ++ shots) hist' := by
  induction shots with
  | nil =>
      intro k done hist hist' h hbuilt
      rw [histogram, Except.ok.injEq] at hbuilt
      rw [← hbuilt, List.append_nil]
      exact h
  | cons shot rest ih =>
      intro k done hist hist' h hbuilt
      rw [histogram] at hbuilt
      split at hbuilt
      · exact absurd hbuilt (by simp only [reduceCtorEq, not_false_eq_true])
      · have hall := ih (tallies_bump h shot) hbuilt
        rwa [List.append_assoc, List.singleton_append] at hall

/-! ## Keys and values -/

/-- What keys and values say about some shots. -/
structure IsHistogram (shots : List (List UInt8)) (keys values : List UInt8) : Prop where
  /-- The keys end with a terminator, and have no other NUL byte unless a shot
      has one. -/
  terminated : keys.getLast? = some 0 ∧ ((∀ shot ∈ shots, 0 ∉ shot) → 0 ∉ keys.dropLast)
  /-- The names are in strictly increasing order. -/
  ascending : (keyNames keys).Pairwise (· < ·)
  /-- They are the shots. -/
  names : ∀ name, name ∈ keyNames keys ↔ name ∈ shots
  /-- There are as many values as names. -/
  counted : values.length = 8 * (keyNames keys).length
  /-- The value behind a name is how often it occurs. -/
  value : ∀ k name, (keyNames keys)[k]? = some name →
    field 8 values k = sizeTBytes (shots.count name)
  /-- No value is too large for its bytes, unless there are too many shots. -/
  decoded : shots.length < sizeTMod → ∀ k name, (keyNames keys)[k]? = some name →
    leNat (field 8 values k) = shots.count name
  /-- The values add up to the number of shots. -/
  total : ((keyNames keys).map (fun name => shots.count name)).sum = shots.length

section

variable {shots : List (List UInt8)} {hist : List (List UInt8 × Nat)}

/-- The names of a written map. -/
theorem keyNames_hist (h : Tallies shots hist) (hne : shots ≠ [])
    (hcomma : ∀ shot ∈ shots, comma ∉ shot) :
    keyNames ([comma].intercalate (hist.map Prod.fst) ++ [0]) = hist.map Prod.fst := by
  rcases List.exists_mem_of_ne_nil shots hne with ⟨shot, hshot⟩
  refine keyNames_intercalate (List.ne_nil_of_mem ((h.keys shot).mpr hshot)) (fun key hkey => ?_)
  exact hcomma key ((h.keys key).mp hkey)

/-- What is written for a map. -/
theorem isHistogram_of_tallies (h : Tallies shots hist) (hne : shots ≠ [])
    (hcomma : ∀ shot ∈ shots, comma ∉ shot) :
    IsHistogram shots ([comma].intercalate (hist.map Prod.fst) ++ [0])
      (hist.flatMap (fun entry => sizeTBytes entry.2)) := by
  have hnames := keyNames_hist h hne hcomma
  have hwidth : ∀ entry ∈ hist, (sizeTBytes entry.2).length = 8 :=
    fun entry _ => length_leBytes 8 entry.2
  -- The value behind a name is how often the shot occurs.
  have hvalue : ∀ k name, (hist.map Prod.fst)[k]? = some name →
      field 8 (hist.flatMap (fun entry => sizeTBytes entry.2)) k =
        sizeTBytes (shots.count name) := by
    intro k name hk
    rw [List.getElem?_map] at hk
    rcases Option.map_eq_some_iff.mp hk with ⟨entry, hentry, rfl⟩
    rw [field_flatMap hwidth hentry, h.counts entry (List.mem_of_getElem? hentry)]
  refine ⟨⟨List.getLast?_concat, fun hnul => ?_⟩, ?_, ?_, ?_, ?_, ?_, ?_⟩
  · exact (intercalate_terminated (fun key hkey => hnul key ((h.keys key).mp hkey))).2
  · rw [hnames]
    exact h.ascending
  · rw [hnames]
    exact h.keys
  · rw [hnames, List.length_map, length_flatMap_eq hist hwidth, Nat.mul_comm]
  · rw [hnames]
    exact hvalue
  · intro hfew k name hk
    rw [hnames] at hk
    rw [hvalue k name hk, sizeTBytes, leNat_leBytes]
    exact Nat.mod_eq_of_lt (Nat.lt_of_le_of_lt List.count_le_length hfew)
  · rw [hnames, List.map_map, ← h.total]
    refine congrArg List.sum (List.map_congr_left (fun entry hentry => ?_))
    exact (h.counts entry hentry).symm

end

/-! ## The two queries -/

/-- A query delivers some bytes, unless one of its first `n` allocations fails
    and it throws. -/
def DeliversInMemory (q : Alloc → OutArgs → Except Fault (Except Exn Reply)) (n : Nat)
    (bytes : List UInt8) : Prop :=
  ∀ mem, Delivers (q mem) bytes ∨
    ((∃ k < n, mem k = false) ∧ ∀ out, out.degenerate = false → q mem out = .ok (.error .badAlloc))

/-- Reporting the size early makes no difference to a buffer with room. -/
theorem delivers_respondEarly {bytes : List UInt8} {need : Nat}
    {write : Cursor → Except Fault Cursor} (hne : bytes ≠ []) (hneed : bytes.length = need)
    (hwrite : ∀ buf, write (Cursor.start buf) = (Cursor.start buf).puts bytes) :
    Delivers (fun out => Except.map Except.ok (if (out.degenerate || false) = true then
      .ok (out.reject .errorInvalidargument) else respondEarly out need write)) bytes := by
  rcases delivers_respond hne hneed hwrite with ⟨hprobe, hfits⟩
  refine ⟨hprobe, fun buf ret hle => ?_⟩
  have hroom : ¬ buf.length < need := by omega
  rw [← hfits buf ret hle]
  simp only [respondEarly, respond, if_neg hroom]

theorem histogram_error {mem : Alloc} {shots : List (List UInt8)} {e : Exn} :
    ∀ {k : Nat} {hist : List (List UInt8 × Nat)}, histogram mem k shots hist = .error e →
      e = .badAlloc := by
  induction shots with
  | nil => exact fun h => absurd h (by simp only [histogram, reduceCtorEq, not_false_eq_true])
  | cons shot rest ih =>
      intro k hist h
      rw [histogram] at h
      split at h
      · exact (Except.error.inj h).symm
      · exact ih h

/-- Without memory for every new shot one of the allocations fails. -/
theorem exists_failing {mem : Alloc} {shots : List (List UInt8)} {e : Exn}
    (h : histogram mem 0 shots [] = .error e) : ∃ k < shots.length, mem k = false := by
  by_contra hnone
  have hall : ∀ j shot, shots[j]? = some shot → shot ∉ ([] : List (List UInt8 × Nat)).map Prod.fst →
      shot ∉ shots.take j → mem (0 + j) = true := by
    intro j shot hj _ _
    rw [Nat.zero_add]
    by_contra hmem
    exact hnone ⟨j, (List.getElem?_eq_some_iff.mp hj).1, Bool.eq_false_of_not_eq_true hmem⟩
  rcases histogram_eq_ok_iff.mpr hall with ⟨hist, hok⟩
  rw [hok] at h
  exact absurd h (by simp only [reduceCtorEq, not_false_eq_true])

section

variable [Zero R] [DecidableEq R] [Add R] [Mul R] [DoubleRepr R]

theorem encodeResult_hist {kind : Nat} (hkind : kind = JobResult.histKeys.code ∨
    kind = JobResult.histValues.code) (mem : Alloc) (result : ResultData R) (out : OutArgs) :
    encodeResult mem result kind out = getResultsHist mem result kind out := by
  rcases hkind with rfl | rfl
  all_goals
    simp only [encodeResult, JobResult.code]
    rfl

/-- Whatever the allocations, a histogram that is built is the same one. -/
theorem hist_in_memory {s : DeviceState R} {h i : Nat} {jb : DeviceJob R}
    {result : ResultData R} (hget : s.jobs.get? h = some jb) (hst : jb.status = .done)
    (hi : i < jb.programs.length) (hres : jb.results[i]? = some result) {kind : Nat}
    (hkind : kind = JobResult.histKeys.code ∨ kind = JobResult.histValues.code)
    {hist : List (List UInt8 × Nat)}
    (hhist : histogram (fun _ => true) 0 result.shots [] = .ok hist) {bytes : List UInt8}
    (hbytes : Delivers (fun out => Except.map Except.ok (if (out.degenerate || false) = true then
      .ok (out.reject .errorInvalidargument) else respondHist result hist kind out)) bytes) :
    DeliversInMemory (fun mem => deviceJobGetResults s mem (some h) i kind) result.shots.length
      bytes := by
  have hvalid : isInvalidEnumValue kind JobResult.max = false := by
    rcases hkind with rfl | rfl <;> rfl
  intro mem
  rcases hbuilt : histogram mem 0 result.shots [] with e | hist'
  · refine Or.inr ⟨exists_failing hbuilt, fun out hout => ?_⟩
    dsimp only
    rw [deviceJobGetResults_done hget hst hi hres, hvalid, hout, Bool.or_false,
      if_neg Bool.false_ne_true, encodeResult_hist hkind, getResultsHist, hbuilt,
      histogram_error hbuilt]
  · -- The histogram is the one that is built when there is memory.
    have hfull : ∀ k, (fun _ => true : Alloc) k = true := fun _ => rfl
    have hsame := histogram_available hfull hbuilt
    rw [hhist, Except.ok.injEq] at hsame
    have hbody : ∀ out, encodeResult mem result kind out =
        (respondHist result hist kind out).map .ok := by
      intro out
      rw [encodeResult_hist hkind, getResultsHist, hbuilt, hsame]
    refine Or.inl ?_
    dsimp only
    rw [deviceJobGetResults_body hget hst hi hres mem hvalid hbody]
    exact hbytes

/-- Keys and values are the histogram of the shots, whichever calls they come
    from. -/
theorem histogram_delivered (s : DeviceState R) (h i : Nat) (jb : DeviceJob R)
    (result : ResultData R) (hget : s.jobs.get? h = some jb) (hst : jb.status = .done)
    (hi : i < jb.programs.length) (hres : jb.results[i]? = some result) (hne : result.shots ≠ [])
    (hwidth : ∃ w, ∀ shot ∈ result.shots, shot.length = w)
    (hcomma : ∀ shot ∈ result.shots, comma ∉ shot) :
    ∃ keys values,
      DeliversInMemory (fun mem => deviceJobGetResults s mem (some h) i JobResult.histKeys.code)
        result.shots.length keys ∧
      DeliversInMemory (fun mem => deviceJobGetResults s mem (some h) i JobResult.histValues.code)
        result.shots.length values ∧
      IsHistogram result.shots keys values := by
  rcases hwidth with ⟨w, hwidth⟩
  have hbuilds : ∃ hist, histogram (fun _ => true) 0 result.shots [] = .ok hist :=
    histogram_eq_ok_iff.mpr (fun _ _ _ _ _ => rfl)
  rcases hbuilds with ⟨hist, hhist⟩
  have htallies : Tallies result.shots hist := tallies_histogram tallies_nil hhist
  rcases List.exists_cons_of_ne_nil hne with ⟨front, rest, hshots⟩
  have hfront : front ∈ result.shots := by
    rw [hshots]
    exact List.mem_cons_self
  have hkeys : hist.map Prod.fst ≠ [] := List.ne_nil_of_mem ((htallies.keys front).mpr hfront)
  have hnil : hist ≠ [] := fun hnil => hkeys (by rw [hnil]; rfl)
  refine ⟨_, _, ?_, ?_, isHistogram_of_tallies htallies hne hcomma⟩
  · refine hist_in_memory hget hst hi hres (Or.inl rfl) hhist ?_
    have hbody : respondHist result hist JobResult.histKeys.code = fun out =>
        respondEarly out (hist.length * ((result.shots.headD []).length + 1))
          (writeHistKeys hist) := by
      funext out
      simp only [respondHist, if_true, if_neg hnil]
    rw [hbody]
    refine delivers_respondEarly (List.append_ne_nil_of_right_ne_nil _ (List.cons_ne_nil _ _)) ?_
      (fun buf => writeHistKeys_eq hist hnil _)
    -- The size is computed from the length of the first shot, which is that of every key.
    have hhead : (result.shots.headD []).length = w := by
      rw [hshots, List.headD_cons]
      exact hwidth front hfront
    have hall : ∀ key ∈ hist.map Prod.fst, key.length = w :=
      fun key hkey => hwidth key ((htallies.keys key).mp hkey)
    rw [length_intercalate comma 0 _ hkeys hall, List.length_map, hhead]
  · refine hist_in_memory hget hst hi hres (Or.inr rfl) hhist ?_
    have hbody : respondHist result hist JobResult.histValues.code = fun out =>
        respondEarly out (hist.length * 8) (writeHistValues hist) := by
      funext out
      simp only [respondHist, JobResult.code]
      rfl
    have hlength : (hist.flatMap (fun entry => sizeTBytes entry.2)).length = hist.length * 8 :=
      length_flatMap_eq hist (fun entry _ => length_leBytes 8 entry.2)
    rw [hbody]
    refine delivers_respondEarly ?_ hlength (fun buf => writeHistValues_eq hist _)
    have hpos := List.length_pos_iff.mpr hnil
    rw [← List.length_pos_iff, hlength]
    omega

theorem encodeResult_shots (mem : Alloc) (result : ResultData R) (out : OutArgs) :
    encodeResult mem result JobResult.shots.code out = (getResultsShots result out).map .ok := by
  rw [encodeResult, if_pos rfl]

/-- The shots come back out of their string. -/
theorem shots_delivered (s : DeviceState R) (mem : Alloc) (h i : Nat) (jb : DeviceJob R)
    (result : ResultData R) (hget : s.jobs.get? h = some jb) (hst : jb.status = .done)
    (hi : i < jb.programs.length) (hres : jb.results[i]? = some result) (hne : result.shots ≠ [])
    (hwidth : ∃ w, ∀ shot ∈ result.shots, shot.length = w)
    (hcomma : ∀ shot ∈ result.shots, comma ∉ shot) (hnul : ∀ shot ∈ result.shots, 0 ∉ shot) :
    ∃ bytes, Delivers (deviceJobGetResults s mem (some h) i JobResult.shots.code) bytes ∧
      bytes.getLast? = some 0 ∧ 0 ∉ bytes.dropLast ∧ keyNames bytes = result.shots := by
  rcases hwidth with ⟨w, hwidth⟩
  rcases List.exists_cons_of_ne_nil hne with ⟨front, rest, hshots⟩
  have hfront : front.length = w := by
    refine hwidth front ?_
    rw [hshots]
    exact List.mem_cons_self
  rcases intercalate_terminated hnul with ⟨hlast, hfront'⟩
  refine ⟨[comma].intercalate result.shots ++ [0], ?_, hlast, hfront',
    keyNames_intercalate hne hcomma⟩
  · have hbody : getResultsShots result = fun out =>
        respond out (result.shots.length * (front.length + 1)) (writeShots result.shots) := by
      funext out
      simp only [getResultsShots, hshots]
    rw [deviceJobGetResults_body hget hst hi hres mem rfl (encodeResult_shots mem result), hbody,
      hfront]
    exact delivers_respond (List.append_ne_nil_of_right_ne_nil _ (List.cons_ne_nil _ _))
      (length_intercalate comma 0 _ hne hwidth) (fun buf => writeShots_eq _ hne _)

end

/-- Three shots of two qubits. -/
def sampleShots : ResultData ℚ := ⟨[ascii "01", ascii "00", ascii "01"], []⟩

theorem histogram_delivered_sample :
    ∃ keys values,
      DeliversInMemory (fun mem => deviceJobGetResults (finishedState sampleShots) mem (some 0) 0
        JobResult.histKeys.code) 3 keys ∧
      DeliversInMemory (fun mem => deviceJobGetResults (finishedState sampleShots) mem (some 0) 0
        JobResult.histValues.code) 3 values ∧
      IsHistogram [ascii "01", ascii "00", ascii "01"] keys values :=
  histogram_delivered (finishedState sampleShots) 0 0 (finishedJob sampleShots) sampleShots rfl rfl
    Nat.zero_lt_one rfl (List.cons_ne_nil _ _) ⟨2, by decide⟩ (by decide)

theorem shots_delivered_sample :
    ∃ bytes, Delivers (deviceJobGetResults (finishedState sampleShots) (fun _ => true) (some 0) 0
        JobResult.shots.code) bytes ∧
      bytes.getLast? = some 0 ∧ 0 ∉ bytes.dropLast ∧
      keyNames bytes = [ascii "01", ascii "00", ascii "01"] :=
  shots_delivered (finishedState sampleShots) (fun _ => true) 0 0 (finishedJob sampleShots)
    sampleShots rfl rfl Nat.zero_lt_one rfl (List.cons_ne_nil _ _) ⟨2, by decide⟩ (by decide)
    (by decide)

end Qdmi
