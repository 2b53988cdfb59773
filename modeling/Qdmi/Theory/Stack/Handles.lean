import Qdmi.Lib.Records
import Qdmi.Theory.Stack.Safety
import Qdmi.Theory.Stack.Tables

/-!
# Handles That a Client Was Told

A client of the driver uses the handles of sites and operations that it was given.
It asks a device for a list of them, first for its size and then for its bytes,
and reads the words of the buffer. Nobody checks such a handle: the driver passes
it on and the library follows it.

This is safe (`stackRuns_told_safe`). The lists are tables of the library, so what
a client was told at any time, through any session, is the address of a site or
an operation of that library, and no other assumption on the addresses is needed
than the ones that the books do not make: a client asks the library that has told
it the handle.

## Main definitions

* `handleList`: The lists of handles a device reports.
* `Answered`, `Told`: What a client has read in the course of a run.
* `PassesTold`: A client passes handles that it was told.

## Theorems

* `tableAnswer_list`, `listProperty_success`: What a list property hands out.
* `told_listed`: What was told is on the list.
* `stackRuns_told_safe`: No call of such a client goes wrong.
-/

namespace Qdmi

namespace Driver

variable {R : Type}

/-- The lists of handles a device reports. -/
def handleList (img : Image) : DeviceProperty → Option (List Nat)
  | .sites => some (deviceSites.map img.siteAddr)
  | .couplingmap => some (deviceCouplingMap.map img.siteAddr)
  | .operations => some (deviceOperations.map img.operationAddr)
  | _ => none

/-- The words of the lists are addresses of a 64 bit machine. -/
def Addressable (img : Image) : Prop :=
  (∀ i ∈ deviceSites, img.siteAddr i < sizeTMod) ∧ ∀ op, img.operationAddr op < sizeTMod

theorem coupled_sites : ∀ i ∈ deviceCouplingMap, i ∈ deviceSites := by decide

/-- The common body of the queries, where it succeeds. -/
theorem respond_success {out : OutArgs} {bytes : List UInt8} {reply : Reply}
    (h : respond out bytes.length (fun cur => cur.puts bytes) = .ok reply)
    (hsucc : reply.status = .success) :
    (∀ size, reply.sizeRet = some size → size = bytes.length) ∧
      ∀ buf, reply.value = some buf → ∃ rest, buf = bytes ++ rest := by
  unfold respond at h
  rcases hvalue : out.value with _ | buf
  · simp only [hvalue, Except.ok.injEq] at h
    rw [← h]
    refine ⟨fun size hsize => ?_, fun buf hbuf => absurd hbuf (by simp only [reduceCtorEq,
      not_false_eq_true])⟩
    rw [OutArgs.reported] at hsize
    split at hsize
    · exact (Option.some.inj hsize).symm
    · exact absurd hsize (by simp only [reduceCtorEq, not_false_eq_true])
  · simp only [hvalue] at h
    split at h
    · rw [← Except.ok.inj h] at hsucc
      exact absurd hsucc (by simp only [OutArgs.reject, reduceCtorEq, not_false_eq_true])
    rcases bind_eq_ok h with ⟨cur, hcur, hreply⟩
    by_cases hfit : (Cursor.start buf).pos + bytes.length ≤ (Cursor.start buf).buf.length
    · rw [Cursor.puts_ok _ _ hfit, Except.ok.injEq] at hcur
      rw [← Except.ok.inj hreply, ← hcur, Cursor.written_start]
      refine ⟨fun size hsize => ?_, fun buf' hbuf => ⟨_, (Option.some.inj hbuf).symm⟩⟩
      dsimp only at hsize
      rw [OutArgs.reported] at hsize
      split at hsize
      · exact (Option.some.inj hsize).symm
      · exact absurd hsize (by simp only [reduceCtorEq, not_false_eq_true])
    · rw [Cursor.puts_error _ _ hfit] at hcur
      exact absurd hcur (by simp only [reduceCtorEq, not_false_eq_true])

/-- In the column of the device exactly one macro has a list property. -/
theorem tableAnswer_list {img : Image} {prop : DeviceProperty} {handles : List Nat}
    (hlist : handleList img prop = some handles) (out : OutArgs) :
    tableAnswer img (.deviceProperty prop.code out) =
      if (out.degenerate || false) = true then .ok (out.reject .errorInvalidargument)
      else respond out (handles.flatMap sizeTBytes).length
        (fun cur => cur.puts (handles.flatMap sizeTBytes)) := by
  cases prop with
  | sites | couplingmap | operations =>
      rw [← Option.some.inj hlist]
      rfl
  | _ => exact absurd hlist (by simp only [handleList, reduceCtorEq, not_false_eq_true])

/-- What a list property hands out: its size, and a buffer that begins with the
    addresses. -/
theorem listProperty_success {img : Image} {prop : DeviceProperty} {handles : List Nat}
    (hlist : handleList img prop = some handles) {out : OutArgs} {reply : Reply}
    (h : tableAnswer img (.deviceProperty prop.code out) = .ok reply)
    (hsucc : reply.status = .success) :
    (∀ size, reply.sizeRet = some size → size = handles.length * 8) ∧
      ∀ buf, reply.value = some buf → ∃ rest, buf = handles.flatMap sizeTBytes ++ rest := by
  have hbytes : (handles.flatMap sizeTBytes).length = handles.length * 8 :=
    length_flatMap_eq _ (fun n _ => length_leBytes 8 n)
  rw [tableAnswer_list hlist] at h
  split at h
  · rw [← Except.ok.inj h] at hsucc
    exact absurd hsucc (by simp only [OutArgs.reject, reduceCtorEq, not_false_eq_true])
  · rw [← hbytes]
    exact respond_success h hsucc

/-! ## What a client has read -/

/-- A device of a library has answered a query for a property. -/
def Answered (tr : List (StackEntry R)) (key : Nat × List UInt8) (prop : DeviceProperty)
    (reply : Reply) : Prop :=
  ∃ e ∈ tr, ∃ dev d out, e.label.call.op = .deviceQueryDeviceProperty (some dev) prop.code out ∧
    deviceOf e.pre.driver dev = some d ∧ d.library.key = key ∧ e.out.reply = .ok reply ∧
    reply.status = .success

/-- A client was told an address: one answer has reported a size, and the address
    is a word of a buffer that another has filled, within that size. -/
def Told (tr : List (StackEntry R)) (key : Nat × List UInt8) (prop : DeviceProperty)
    (handle : Nat) : Prop :=
  ∃ reply reply' size buf i, Answered tr key prop reply ∧ reply.sizeRet = some size ∧
    Answered tr key prop reply' ∧ reply'.value = some buf ∧ 8 * (i + 1) ≤ size ∧
    leNat (field 8 buf i) = handle

/-- A client passes handles that it was told by the library it asks. -/
def PassesTold (tr : List (StackEntry R)) (t : Stack R) (c : StackCall R) : Prop :=
  ∀ dev d handle, deviceOf t.driver dev = some d →
    (∀ prop out, c.call.op = .deviceQuerySiteProperty (some dev) (some handle) prop out →
      Told tr d.library.key .sites handle ∨ Told tr d.library.key .couplingmap handle) ∧
    ∀ args prop out,
      c.call.op = .deviceQueryOperationProperty (some dev) (some handle) args prop out →
      Told tr d.library.key .operations handle

section

variable [Zero R] [DecidableEq R] [Add R] [Mul R] [Div R] [DoubleRepr R]
variable {addr : DeviceHandle → Nat} {img : Nat × List UInt8 → Image}
variable {t : Stack R} {tr : List (StackEntry R)} {key : Nat × List UInt8}

/-- An answer of a run is the one of the tables. -/
theorem answered_tables (hrun : StackRuns addr img tr t) (hrule : Respects FreesJobs tr)
    {prop : DeviceProperty} {reply : Reply} (hprop : prop.code ≠ DeviceProperty.status.code)
    (hid : prop.code ≠ DeviceProperty.id.code) (h : Answered tr key prop reply) :
    ∃ out, tableAnswer (img key) (.deviceProperty prop.code out) = .ok reply ∧
      reply.status = .success := by
  rcases h with ⟨e, he, dev, d, out, hop, hdev, hkey, hreply, hsucc⟩
  rcases runs_mem hrun he with ⟨tr₁, tr₂, htr, hrun₁, hstep, _⟩
  rw [htr] at hrule
  have hcall : queryCallOf e.label.call.op = some (dev, .deviceProperty prop.code out) := by
    rw [hop]
    exact if_neg hid
  rcases stackRuns_tables addr img tr₁ e.pre e.post hrun₁ (respects_append.mp hrule).1 e.label dev
    _ hcall (bne_iff_ne.mpr hprop) e.out hstep with ⟨sess, d', hdev', htable, _⟩
  have hsame := (deviceOf_of_deviceAt hdev').2
  rw [hdev, Option.some.injEq] at hsame
  rw [← hsame, hkey, hreply] at htable
  rcases htab : tableAnswer (img key) (.deviceProperty prop.code out) with fault | reply'
  · rw [htab] at htable
    exact absurd htable (by simp only [Except.map, reduceCtorEq, not_false_eq_true])
  · rw [htab, Except.map, Except.ok.injEq, Except.ok.injEq] at htable
    rw [← htable] at hsucc ⊢
    exact ⟨out, htab, hsucc⟩

/-- What was told is on the list. -/
theorem told_listed (himg : Addressable (img key)) (hrun : StackRuns addr img tr t)
    (hrule : Respects FreesJobs tr) {prop : DeviceProperty} {handles : List Nat} {handle : Nat}
    (hlist : handleList (img key) prop = some handles) (h : Told tr key prop handle) :
    handle ∈ handles := by
  have hbound : ∀ n ∈ handles, n < sizeTMod := by
    intro n hn
    cases prop with
    | sites =>
        rw [← Option.some.inj hlist] at hn
        rcases List.mem_map.mp hn with ⟨i, hi, rfl⟩
        exact himg.1 i hi
    | couplingmap =>
        rw [← Option.some.inj hlist] at hn
        rcases List.mem_map.mp hn with ⟨i, hi, rfl⟩
        exact himg.1 i (coupled_sites i hi)
    | operations =>
        rw [← Option.some.inj hlist] at hn
        rcases List.mem_map.mp hn with ⟨op, _, rfl⟩
        exact himg.2 op
    | _ => exact absurd hlist (by simp only [handleList, reduceCtorEq, not_false_eq_true])
  have hprop : prop.code ≠ DeviceProperty.status.code ∧ prop.code ≠ DeviceProperty.id.code := by
    cases prop with
    | sites | couplingmap | operations => decide
    | _ => exact absurd hlist (by simp only [handleList, reduceCtorEq, not_false_eq_true])
  rcases h with ⟨reply, reply', size, buf, i, hanswered, hsize, hanswered', hbuf, hi, hword⟩
  rcases answered_tables hrun hrule hprop.1 hprop.2 hanswered with ⟨out, htable, hsucc⟩
  rcases answered_tables hrun hrule hprop.1 hprop.2 hanswered' with ⟨out', htable', hsucc'⟩
  -- The size counts the handles, and the buffer begins with them.
  rw [(listProperty_success hlist htable hsucc).1 size hsize] at hi
  rcases (listProperty_success hlist htable' hsucc').2 buf hbuf with ⟨rest, hrest⟩
  have hin : i < handles.length := by omega
  have hfield : field 8 buf i = sizeTBytes handles[i] := by
    have hlen : (handles.flatMap sizeTBytes).length = handles.length * 8 :=
      length_flatMap_eq _ (fun n _ => length_leBytes 8 n)
    rw [hrest, field_append (by omega)]
    exact field_flatMap (fun n _ => length_leBytes 8 n) (List.getElem?_eq_getElem hin)
  have hbig : sizeTMod = 256 ^ 8 := by norm_num [sizeTMod]
  rw [hfield, sizeTBytes, leNat_leBytes, ← hbig, Nat.mod_eq_of_lt (hbound _ (List.getElem_mem hin))]
    at hword
  rw [← hword]
  exact List.getElem_mem hin

/-- The addresses on the lists are those of sites and operations. -/
theorem siteAt_of_listed {img : Image} {handle : Nat}
    (h : handle ∈ deviceSites.map img.siteAddr ∨ handle ∈ deviceCouplingMap.map img.siteAddr) :
    ∃ site, siteAt img handle = some site := by
  have hsite : ∃ i ∈ deviceSites, img.siteAddr i = handle := by
    rcases h with h | h
    · exact List.mem_map.mp h
    · rcases List.mem_map.mp h with ⟨i, hi, heq⟩
      exact ⟨i, coupled_sites i hi, heq⟩
  rcases hsite with ⟨i, hi, heq⟩
  exact Option.isSome_iff_exists.mp (List.find?_isSome.mpr ⟨i, hi, beq_iff_eq.mpr heq⟩)

theorem operationAt_of_listed {img : Image} {handle : Nat}
    (h : handle ∈ deviceOperations.map img.operationAddr) :
    ∃ operation, operationAt img handle = some operation := by
  rcases List.mem_map.mp h with ⟨op, hop, heq⟩
  exact Option.isSome_iff_exists.mp (List.find?_isSome.mpr ⟨op, hop, beq_iff_eq.mpr heq⟩)

/-- A client that passes what it was told asks about sites and operations of the
    library. -/
theorem passesOwn_of_told (himg : ∀ key, Addressable (img key)) (hrun : StackRuns addr img tr t)
    (hrule : Respects FreesJobs tr) {c : StackCall R} {out : DriverOut} {s : DriverState}
    (hdriver : driverStep addr t.driver c.call = .ok (out, s)) (htold : PassesTold tr t c) :
    PassesOwn img out.events := by
  intro key n qc hmem
  rcases driverStep_passed hdriver hmem rfl with ⟨_, _, _, hcall, _⟩ | ⟨_, dev, qc', hcall, hop⟩
  · exact absurd hcall (by simp only [reduceCtorEq, not_false_eq_true])
  rw [← (LibraryCall.deviceQuery.inj hcall).2] at hop
  rcases driverStep_queryCall hop hdriver with ⟨sess, d, hdev, _, hevents, _⟩
  rw [hevents, List.mem_singleton, Event.call.injEq] at hmem
  have hhere := (deviceOf_of_deviceAt hdev).2
  rw [hmem.1]
  cases hc : c.call.op with
  | deviceQueryDeviceProperty dev' prop o =>
      rw [hc] at hop
      rcases dev' with _ | dev'
      · exact absurd hop (by simp only [queryCallOf, reduceCtorEq, not_false_eq_true])
      rw [queryCallOf] at hop
      split at hop
      · exact absurd hop (by simp only [reduceCtorEq, not_false_eq_true])
      rw [← (Prod.mk.inj (Option.some.inj hop)).2]
      trivial
  | deviceQuerySiteProperty dev' site prop o =>
      rw [hc] at hop
      rcases dev' with _ | dev'
      · exact absurd hop (by simp only [queryCallOf, reduceCtorEq, not_false_eq_true])
      rcases Prod.mk.inj (Option.some.inj hop) with ⟨rfl, rfl⟩
      rcases site with _ | handle
      · trivial
      refine siteAt_of_listed ?_
      rcases (htold dev' d handle hhere).1 prop o hc with h | h
      · exact Or.inl (told_listed (himg _) hrun hrule rfl h)
      · exact Or.inr (told_listed (himg _) hrun hrule rfl h)
  | deviceQueryOperationProperty dev' operation args prop o =>
      rw [hc] at hop
      rcases dev' with _ | dev'
      · exact absurd hop (by simp only [queryCallOf, reduceCtorEq, not_false_eq_true])
      rcases Prod.mk.inj (Option.some.inj hop) with ⟨rfl, rfl⟩
      rcases operation with _ | handle
      · trivial
      exact operationAt_of_listed (told_listed (himg _) hrun hrule rfl
        ((htold dev' d handle hhere).2 args prop o hc))
  | _ =>
      rw [hc] at hop
      exact absurd hop (by simp only [queryCallOf, reduceCtorEq, not_false_eq_true])

/-- Behind every run of clients that free jobs before their session, a call that
    the driver can make, of a client that passes handles it was told, leads to no
    use of a dead handle in any library. -/
theorem stackRuns_told_safe (addr : DeviceHandle → Nat) (img : Nat × List UInt8 → Image)
    (himg : ∀ key, Addressable (img key)) (tr : List (StackEntry R)) (t : Stack R)
    (hrun : StackRuns addr img tr t) (hrule : Respects FreesJobs tr) (c : StackCall R)
    (hfirst : FreesJobs t c) (out : DriverOut) (s : DriverState)
    (hdriver : driverStep addr t.driver c.call = .ok (out, s)) (htold : PassesTold tr t c) :
    stackStep addr img t c ≠ .error (.fault .danglingHandle) :=
  stackStep_safe (stackRuns_inv hrun hrule) hfirst hdriver
    (passesOwn_of_told himg hrun hrule hdriver htold)

end

/-- The five addresses of the sample image. -/
def sitesReply : Reply :=
  { status := .success, sizeRet := some 40,
    value := some ((deviceSites.map sampleImage.siteAddr).flatMap sizeTBytes) }

/-- The library of the second device, for a client that has opened it. -/
def secondLibrary (t : Stack ℚ) : Option (Nat × List UInt8) :=
  (deviceOf t.driver { session := 0, index := 1 }).map (fun d => d.library.key)

/-- It asks about the second site afterwards. -/
theorem stackRuns_told_safe_sample :
    ∃ tr t, StackRuns (R := ℚ) (fun _ => 0) (fun _ => sampleImage) tr t ∧ PassesTold tr t siteCall ∧
      stackStep (fun _ => 0) (fun _ => sampleImage) t siteCall ≠
        .error (.fault .danglingHandle) := by
  rcases stackRuns_continued submitOps [sitesOp] (fun t tr' u =>
    some (tr'.map (fun e => e.out.reply.toOption), secondLibrary t, secondLibrary u,
      (driverStep (fun _ => 0) u.driver siteCall.call).toOption.isSome))
    ([some sitesReply], some (0, [65]), some (0, [65]), true) rfl with
    ⟨tr, tr', t, u, hrun, hrule, hrun', hrule', hlabels, hv⟩
  simp only [Option.some.injEq, Prod.mk.injEq] at hv
  rcases List.map_eq_singleton_iff.mp hv.1 with ⟨e, rfl, hreply⟩
  rcases Option.map_eq_some_iff.mp hv.2.1 with ⟨d, hdev, hkey⟩
  have hpre : e.pre = t := runs_nil (runs_at (show Runs _ t ([] ++ e :: []) u from hrun')).1
  have hop : e.label.call.op = sitesOp := by
    rw [List.map_cons, List.map_nil, stackCalls, List.map_cons, List.map_nil, List.cons.injEq]
      at hlabels
    rw [hlabels.1]
  have hall := runs_append hrun hrun'
  have hrules := respects_append.mpr ⟨hrule, hrule'⟩
  -- The reply to that call is the one that was evaluated.
  have hanswered : Answered (tr ++ [e]) (0, [65]) .sites sitesReply := by
    refine ⟨e, List.mem_append_right _ (List.mem_singleton.mpr rfl), _, d, _, hop,
      by rw [hpre]; exact hdev, hkey, ?_, rfl⟩
    rcases hout : e.out.reply with x | reply
    · rw [hout] at hreply
      exact absurd hreply (by simp only [Except.toOption, reduceCtorEq, not_false_eq_true])
    · rw [hout, Except.toOption, Option.some.injEq] at hreply
      rw [hreply]
  have htold : PassesTold (tr ++ [e]) u siteCall := by
    intro dev d' handle hdev'
    refine ⟨fun prop out hcall => ?_, fun args prop out hcall => ?_⟩
    · simp only [siteCall, DriverOp.deviceQuerySiteProperty.injEq, Option.some.injEq] at hcall
      rw [← hcall.1] at hdev'
      have hkey' : d'.library.key = (0, [65]) := by
        have hsecond := hv.2.2.1
        rw [secondLibrary, hdev', Option.map_some, Option.some.injEq] at hsecond
        exact hsecond
      rw [← hcall.2.1, hkey']
      exact Or.inl ⟨sitesReply, sitesReply, 40, _, 1, hanswered, rfl, hanswered, rfl, by decide,
        by decide⟩
    · exact absurd hcall (by simp only [siteCall, reduceCtorEq, not_false_eq_true])
  refine ⟨tr ++ [e], u, hall, htold, ?_⟩
  rcases hdriver : driverStep (fun _ => 0) u.driver siteCall.call with x | ⟨out, s⟩
  · rw [hdriver] at hv
    exact absurd hv.2.2.2 (by simp only [Except.toOption, Option.isSome_none, Bool.false_eq_true,
      not_false_eq_true])
  have himg : ∀ _ : Nat × List UInt8, Addressable sampleImage := by
    refine fun _ => ⟨by decide, fun op => ?_⟩
    cases op
    all_goals decide
  exact stackRuns_told_safe (fun _ => 0) (fun _ => sampleImage) himg (tr ++ [e]) u hall hrules
    siteCall (fun h hop => absurd hop (by simp only [siteCall, reduceCtorEq, not_false_eq_true]))
    out s hdriver htold

end Driver

end Qdmi
