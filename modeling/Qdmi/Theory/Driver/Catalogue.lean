import Mathlib.Data.List.Induction
import Qdmi.Theory.Driver.Access
import Qdmi.Theory.Driver.Attempt
import Qdmi.Theory.Driver.Reading
import Qdmi.Theory.SizeProtocol

/-!
# The Catalogue of Devices

Every session shows the devices of one catalogue, which the driver builds from
its configuration. The file may change at any time, and sessions come and go in
any order, but nobody looks at the file while there is a session: the counter
decides, and it is the number of live sessions. So the catalogue is fixed from
the allocation that ends a time without sessions to the free that starts the
next one, and it is what that allocation read: `configuredIds` of the text, up to
where its memory lasted (`ReadFrom`).

`CatalogueInv` is what a single state has to offer: the counter counts, the IDs
are distinct and not empty, and every initialized session lists them in order.
It holds of any run, also of one whose clients free a session before its jobs.

`Exposes` puts the result in terms of what a client is told. It asks the
session for its devices, takes the handles out of its buffer one behind the other,
and asks each device for its ID.

## Main definitions

* `configuredId`, `configuredIds`: The IDs a configuration gives.
* `ReadFrom`: The IDs that a call has read from it.
* `catalogue`: The IDs of the configured devices.
* `CatalogueInv`: What holds of them in every state.
* `deviceHandles`: The handles of the devices of a session.
* `Exposes`: The IDs a client reads.
* `Reads`, `CurrentConfig`: The allocation that read the configuration.
* `Catalogued`: What a run says about the catalogue.

## Theorems

* `initializeDriver_readFrom`: Which IDs are configured.
* `catalogueInv_move`, `driverRuns_catalogueInv`: The invariant.
* `driverMove_catalogue`, `runs_catalogue`: The catalogue is fixed while there
  are sessions.
* `driverStep_config`: Who looks at the configuration.
* `driverRuns_catalogued`: All of it over a run.
-/

namespace Qdmi

namespace Driver

/-- The ID a line of the configuration gives a device: its third field, if the line
    counts. -/
def configuredId (line : List UInt8) : Option (List UInt8) :=
  if line = [] ∨ line.head? = some 35 then none else (configFields line)[2]?

/-- The IDs a configuration gives its devices, in its order. -/
def configuredIds (content : List UInt8) : List (List UInt8) :=
  (configLines content).filterMap configuredId

/-- The IDs that a call has read from a configuration. They come first in it, and they
    are all there when every line found memory for its text. -/
structure ReadFrom (mem : Alloc) (content : List UInt8) (ids : List (List UInt8)) : Prop where
  read : ids = (readLines mem 0 (configLines content)).filterMap configuredId
  ordered : ids <+: configuredIds content
  complete : (∀ k, mem (9 * k + 1) = true) → ids = configuredIds content
  distinct : ids.Nodup
  nonempty : ∀ id ∈ ids, id ≠ []

/-- The IDs of the configured devices. -/
def catalogue (s : DriverState) : List (List UInt8) := s.configuredDevices.map Configured.id

/-- The IDs of the devices of a session. -/
def Session.ids (sess : Session) : List (List UInt8) := sess.deviceList.map Device.id

/-! ## The IDs of a configuration -/

/-- No field of a line is empty. -/
theorem configFields_ne_nil {line field : List UInt8} (h : field ∈ configFields line) :
    field ≠ [] := by
  rw [configFields, List.mem_filter] at h
  intro hnil
  rw [hnil] at h
  exact absurd h.2 Bool.false_ne_true

theorem configuredId_ne_nil {line id : List UInt8} (h : configuredId line = some id) : id ≠ [] := by
  unfold configuredId at h
  split at h
  · exact absurd h (by simp only [reduceCtorEq, not_false_eq_true])
  · exact configFields_ne_nil (List.mem_of_getElem? h)

/-- The entry of a line has its ID. -/
theorem configuredId_of_readEntry {mem : Alloc} {k : Nat} {line : List UInt8} {e : ConfigEntry}
    (h : readEntry mem k line = some e) : configuredId line = some e.id := by
  rcases readEntry_eq_some_iff.mp h with ⟨hrel, hfields⟩
  have htake := (lineFields_eq_iff.mp hfields).2.1
  rw [configuredId, if_neg (fun hskip => not_relevant_iff.mpr hskip hrel),
    ← List.getElem?_take_of_lt (by omega : 2 < 3), htake]
  rfl

/-- When every line that counts has an entry, the entries have the IDs of the lines. The
    induction is on the lines from the last one on, since an entry depends on how many
    lines are before it. -/
theorem readEntriesFrom_ids {mem : Alloc} (lines : List (List UInt8))
    (h : ∀ before line after, lines = before ++ line :: after → Relevant line →
      ∃ e, readEntry mem before.length line = some e) :
    (readEntriesFrom mem 0 lines).map ConfigEntry.id = lines.filterMap configuredId := by
  induction lines using List.reverseRecOn with
  | nil => rfl
  | append_singleton lines line ih =>
      have hlast := h lines line [] rfl
      rw [readEntriesFrom_snoc, List.map_append, List.filterMap_append,
        ih (fun before line' after heq => h before line' (after ++ [line]) (by
          rw [heq, List.append_assoc, List.cons_append]))]
      congr 1
      by_cases hrel : Relevant line
      · rcases hlast hrel with ⟨e, he⟩
        rw [he, List.filterMap_cons_some (configuredId_of_readEntry he)]
        rfl
      · have hnone : configuredId line = none := by
          rw [configuredId, if_pos (not_relevant_iff.mp hrel)]
        rw [readEntry_of_not_relevant hrel, List.filterMap_cons_none hnone]
        rfl

/-- With memory for their texts all lines are read. -/
theorem readLines_of_mem_text {mem : Alloc} (hmem : ∀ k, mem (9 * k + 1) = true)
    (lines : List (List UInt8)) : ∀ k, readLines mem k lines = lines := by
  induction lines with
  | nil => exact fun _ => rfl
  | cons line lines ih =>
      intro k
      rw [readLines, if_pos (hmem k), ih]

/-- The driver configures the devices of the text it reads. -/
theorem initializeDriver_readFrom {env : DriverEnv} {events : List Event}
    {libraries : List Library} {configuredDevices : List Configured}
    (h : initializeDriver env = (events, .ok (libraries, configuredDevices))) :
    ∃ content, env.config = .text content ∧
      ReadFrom env.mem content (configuredDevices.map Configured.id) := by
  rcases initializeDriver_reads h with ⟨content, hconfig, hids, hnodup⟩
  rcases (initializeDriver_ok_iff env).mp ⟨_, _, congrArg Prod.snd h⟩ with
    ⟨content', hconfig', hall⟩
  rw [hconfig, ConfigSource.text.injEq] at hconfig'
  rw [← hconfig'] at hall
  -- Every line that counts had an entry, or it would have ended the loop.
  rw [readEntries, readEntriesFrom_ids _ (fun before line after heq hrel => by
    rcases hall before line after heq hrel with ⟨e, he, _⟩
    exact ⟨e, he⟩)] at hids
  refine ⟨content, hconfig, hids, ?_, fun hmem => ?_, hnodup, fun id hid => ?_⟩
  · rw [hids]
    exact (readLines_initial _ 0).filterMap _
  · rw [hids, readLines_of_mem_text hmem, configuredIds]
  · rw [hids, List.mem_filterMap] at hid
    rcases hid with ⟨line, _, hline⟩
    exact configuredId_ne_nil hline

/-! ## The invariant -/

/-- What holds of the catalogue in every state. -/
structure CatalogueInv (s : DriverState) : Prop where
  counter : s.count = s.sessions.count
  distinct : (catalogue s).Nodup
  nonempty : ∀ id ∈ catalogue s, id ≠ []
  listed : ∀ h sess, s.sessions.get? h = some sess → sess.status = .initialized →
    sess.ids = catalogue s

theorem catalogueInv_initial : CatalogueInv {} where
  counter := rfl
  distinct := List.nodup_nil
  nonempty _ hid := absurd hid List.not_mem_nil
  listed _ _ hget := absurd hget (by simp only [Heap.get?_empty, reduceCtorEq, not_false_eq_true])

section

variable {s t : DriverState} {c : DriverCall} {out : DriverOut}

/-- A state with the same catalogue, in which every initialized session was
    there before. -/
theorem catalogueInv_same (hinv : CatalogueInv s)
    (hconf : t.configuredDevices = s.configuredDevices) (hcount : t.count = t.sessions.count)
    (hsess : ∀ h sess, t.sessions.get? h = some sess → sess.status = .initialized →
      s.sessions.get? h = some sess) : CatalogueInv t := by
  have hcat : catalogue t = catalogue s := by rw [catalogue, hconf, catalogue]
  refine ⟨hcount, hcat ▸ hinv.distinct, hcat ▸ hinv.nonempty, fun h sess hget hst => ?_⟩
  rw [hcat]
  exact hinv.listed h sess (hsess h sess hget hst) hst

/-- Replacing a session by one that is not initialized. -/
theorem catalogueInv_replace (hinv : CatalogueInv s) {h : Nat} {sess : Session}
    (hget : s.sessions.get? h = some sess) (sess' : Session) (hst : sess'.status = .allocated)
    (hconf : t.configuredDevices = s.configuredDevices) (hcount : t.count = s.count)
    (hsess : t.sessions = s.sessions.set h sess') : CatalogueInv t := by
  refine catalogueInv_same hinv hconf ?_ (fun i sess'' hget' hst' => ?_)
  · rw [hsess, Heap.count_set _ _ _ _ hget, hcount, hinv.counter]
  · rw [hsess, Heap.get?_set _ _ _ _ hget] at hget'
    by_cases hi : i = h
    · rw [if_pos hi, Option.some.injEq] at hget'
      rw [← hget', hst] at hst'
      exact absurd hst' (by simp only [reduceCtorEq, not_false_eq_true])
    · rwa [if_neg hi] at hget'

/-- A move keeps the invariant. -/
theorem catalogueInv_move (hmove : DriverMove s c out t) (hinv : CatalogueInv s) :
    CatalogueInv t := by
  -- A session that was just allocated is not initialized.
  have hfresh : ∀ {h : Nat} {sess : Session}, (s.sessions.alloc {}).get? h = some sess →
      sess.status = .initialized → s.sessions.get? h = some sess := by
    intro h sess hget hst
    rw [Heap.get?_alloc] at hget
    by_cases hh : h = s.sessions.next
    · rw [if_pos hh, Option.some.injEq] at hget
      rw [← hget] at hst
      exact absurd hst (by simp only [reduceCtorEq, not_false_eq_true])
    · rwa [if_neg hh] at hget
  have hcountDown : ∀ {h : Nat} {sess : Session}, s.sessions.get? h = some sess →
      countDown s.count = (s.sessions.free h).count := by
    intro h sess hget
    rw [hinv.counter, ← Heap.count_free _ _ _ hget]
    rfl
  cases hmove with
  | stay | loadFails | refuseJob | passJob | passQuery => exact hinv
  | adoptJob | freeJob => exact catalogueInv_same hinv rfl hinv.counter (fun _ _ hget _ => hget)
  | allocFirst events libraries configuredDevices hop hzero hload =>
      rcases initializeDriver_readFrom hload with ⟨content, _, hread⟩
      have hempty : s.sessions.count = 0 := by rw [← hinv.counter, hzero]
      refine ⟨by rw [Heap.count_alloc, hempty], hread.distinct, hread.nonempty,
        fun h sess hget hst => ?_⟩
      have hold := hfresh hget hst
      rw [Heap.count_eq_zero hempty] at hold
      exact absurd hold (by simp only [reduceCtorEq, not_false_eq_true])
  | allocNext hop hpos =>
      refine catalogueInv_same hinv rfl ?_ (fun _ _ => hfresh)
      rw [Heap.count_alloc, ← hinv.counter]
  | initFails h sess token o abort hop hget hst =>
      exact catalogueInv_replace hinv hget (withMode sess token) hst rfl rfl rfl
  | setToken h sess token hop hget hst =>
      exact catalogueInv_replace hinv hget { sess with token := some token } hst rfl rfl rfl
  | init h sess token o hop hget hst htoken hopen =>
      have hdevices := (initDone_of_open htoken hopen).devices
      refine ⟨?_, hinv.distinct, hinv.nonempty, fun i sess' hget' hst' => ?_⟩
      · rw [Heap.count_set _ _ _ _ hget]
        exact hinv.counter
      · rw [Heap.get?_set _ _ _ _ hget] at hget'
        by_cases hi : i = h
        · -- The session that was opened lists the configured devices in order.
          rw [if_pos hi, Option.some.injEq] at hget'
          rw [← hget', Session.ids, catalogue]
          have hids := List.forall₂_map_left_iff.mpr (List.forall₂_map_right_iff.mpr
            (hdevices.imp (fun _ _ hd => hd.2.symm)))
          exact (List.forall₂_eq_eq_eq ▸ hids).symm
        · rw [if_neg hi] at hget'
          exact hinv.listed i sess' hget' hst'
  | free h sess hop hget hpos =>
      refine catalogueInv_same hinv rfl (hcountDown hget) (fun i sess' hget' _ => ?_)
      rw [Heap.get?_free] at hget'
      by_cases hi : i = h
      · rw [if_pos hi] at hget'
        exact absurd hget' (by simp only [reduceCtorEq, not_false_eq_true])
      · rwa [if_neg hi] at hget'
  | freeLast h sess hop hget hzero =>
      have hcount := hcountDown hget
      refine ⟨hcount, List.nodup_nil, fun _ hid => absurd hid List.not_mem_nil,
        fun i sess' hget' _ => ?_⟩
      rw [Heap.count_eq_zero (by rw [← hcount, hzero])] at hget'
      exact absurd hget' (by simp only [reduceCtorEq, not_false_eq_true])

/-- The step is the allocation that reads the configuration: it ends a time
    without sessions, and succeeds with this text. -/
def Reads (e : DriverEntry) (content : List UInt8) : Prop :=
  e.label.op = .sessionAlloc true ∧ e.pre.sessions.count = 0 ∧ Succeeds e.out.reply ∧
    e.label.env.config = .text content

/-- A move leaves the catalogue alone, reads it anew or empties it with the last
    session. -/
theorem driverMove_catalogue (hmove : DriverMove s c out t) (hinv : CatalogueInv s) :
    (t.configuredDevices = s.configuredDevices ∧
      (s.sessions.count = 0 → t.sessions.count = 0) ∧
      (c.op = .sessionAlloc true → s.sessions.count = 0 → ¬ Succeeds out.reply)) ∨
    (∃ content, Reads ⟨s, c, out, t⟩ content ∧ ReadFrom c.env.mem content (catalogue t)) ∨
    (t.configuredDevices = [] ∧ t.sessions.count = 0 ∧ c.op ≠ .sessionAlloc true) := by
  have hother : ∀ {op : DriverOp}, c.op = op → op ≠ .sessionAlloc true →
      (c.op = .sessionAlloc true → s.sessions.count = 0 → ¬ Succeeds out.reply) :=
    fun hop hne hop' => absurd (hop.symm.trans hop') hne
  -- A call on a live session does not happen while there is none.
  have hlive : ∀ {h : Nat} {sess : Session} {p : Prop}, s.sessions.get? h = some sess →
      s.sessions.count = 0 → p := by
    intro h sess p hget hzero
    rw [Heap.count_eq_zero hzero] at hget
    exact absurd hget (by simp only [reduceCtorEq, not_false_eq_true])
  cases hmove with
  | stay reply hno =>
      refine Or.inl ⟨rfl, id, fun hop _ => hno ?_⟩
      rw [hop]
      trivial
  | loadFails events status hop hzero hload =>
      exact Or.inl ⟨rfl, id, fun _ _ => ((initializeDriver_inv hload).1 status rfl).1⟩
  | allocFirst events libraries configuredDevices hop hzero hload =>
      rcases initializeDriver_readFrom hload with ⟨content, hconfig, hread⟩
      have hempty : s.sessions.count = 0 := by rw [← hinv.counter, hzero]
      exact Or.inr (Or.inl ⟨content, ⟨hop, hempty, rfl, hconfig⟩, hread⟩)
  | allocNext hop hpos =>
      rw [hinv.counter] at hpos
      exact Or.inl ⟨rfl, fun hzero => absurd hzero hpos, fun _ hzero => absurd hzero hpos⟩
  | initFails h sess token o abort hop hget =>
      exact Or.inl ⟨rfl, hlive hget, fun _ => hlive hget⟩
  | init h sess token o hop hget =>
      exact Or.inl ⟨rfl, hlive hget, fun _ => hlive hget⟩
  | setToken h sess token hop hget =>
      exact Or.inl ⟨rfl, hlive hget, fun _ => hlive hget⟩
  | free h sess hop hget =>
      exact Or.inl ⟨rfl, hlive hget, fun _ => hlive hget⟩
  | freeLast h sess hop hget hzero =>
      refine Or.inr (Or.inr ⟨rfl, ?_, ?_⟩)
      · -- The counter goes down with the number of sessions.
        rw [hinv.counter, ← Heap.count_free _ _ _ hget] at hzero
        exact hzero
      · rw [hop]
        exact fun hc => absurd hc (by simp only [reduceCtorEq, not_false_eq_true])
  | refuseJob dev sess d status call hop | adoptJob dev sess d call hop =>
      refine Or.inl ⟨rfl, id, fun hop' => ?_⟩
      rw [hop'] at hop
      exact absurd hop (fun hf => hf)
  | freeJob j jb sess d hop =>
      exact Or.inl ⟨rfl, id, hother hop (by simp only [ne_eq, reduceCtorEq, not_false_eq_true])⟩
  | passJob j jb sess d call hno | passQuery dev sess d call hno =>
      refine Or.inl ⟨rfl, id, fun hop => absurd ?_ hno⟩
      rw [hop]
      trivial

end

/-! ## Over a run -/

/-- The last step that read a configuration, with no moment without sessions
    since. -/
def CurrentConfig (tr : List DriverEntry) (e : DriverEntry) (content : List UInt8) : Prop :=
  ∃ before after, tr = before ++ e :: after ∧ Reads e content ∧
    ∀ e' ∈ after, e'.post.sessions.count ≠ 0

section

variable {addr : DeviceHandle → Nat}

/-- While there are sessions the catalogue is the one of the last configuration
    that was read. -/
theorem driverRuns_current {tr : List DriverEntry} {s : DriverState}
    (hrun : DriverRuns addr tr s) : CatalogueInv s ∧ (s.sessions.count ≠ 0 →
      ∃ e content, CurrentConfig tr e content ∧
        ReadFrom e.label.env.mem content (catalogue s)) := by
  refine runs_invariant (C := fun _ _ => True)
    (P := fun tr s => CatalogueInv s ∧ (s.sessions.count ≠ 0 →
      ∃ e content, CurrentConfig tr e content ∧ ReadFrom e.label.env.mem content (catalogue s)))
    hrun (fun _ _ => trivial) ⟨catalogueInv_initial, fun hne => absurd rfl hne⟩ ?_
  rintro tr s c out t _ _ ⟨hinv, hcurrent⟩ _ hstep
  have hmove := driverStep_move hstep
  refine ⟨catalogueInv_move hmove hinv, fun hlive => ?_⟩
  rcases driverMove_catalogue hmove hinv with
    ⟨hsame, hnone, _⟩ | ⟨content, hreads, hread⟩ | ⟨_, hzero, _⟩
  · -- The file read last is still the last one.
    rcases hcurrent (fun hzero => hlive (hnone hzero)) with
      ⟨e, content, ⟨before, after, htr, hreads, hafter⟩, hread⟩
    refine ⟨e, content, ⟨before, after ++ [⟨s, c, out, t⟩], ?_, hreads, ?_⟩, ?_⟩
    · rw [htr, List.append_assoc, List.cons_append]
    · exact List.forall_mem_append.mpr ⟨hafter, List.forall_mem_singleton.mpr hlive⟩
    · rw [catalogue, hsame]
      exact hread
  · exact ⟨_, content, ⟨tr, [], rfl, hreads, fun _ he => absurd he List.not_mem_nil⟩, hread⟩
  · exact absurd hzero hlive

/-- Between two moments without sessions the catalogue stays. -/
theorem runs_catalogue {s u : DriverState} {tr : List DriverEntry}
    (hrun : Runs (driverStep addr) s tr u) (hinv : CatalogueInv s) (hlive : s.sessions.count ≠ 0)
    (hall : ∀ e ∈ tr, e.post.sessions.count ≠ 0) : catalogue u = catalogue s := by
  have hP := runs_invariant (C := fun _ _ => True)
    (P := fun tr u => (∀ e ∈ tr, e.post.sessions.count ≠ 0) → CatalogueInv u ∧
      u.sessions.count ≠ 0 ∧ catalogue u = catalogue s)
    hrun (fun _ _ => trivial) (fun _ => ⟨hinv, hlive, rfl⟩) ?_
  · exact (hP hall).2.2
  intro tr t c out v _ _ ih _ hstep hall
  rcases List.forall_mem_append.mp hall with ⟨hinit, hlast⟩
  rcases ih hinit with ⟨ht, hlive', hsame⟩
  have hlive'' : v.sessions.count ≠ 0 := hlast _ (List.mem_singleton.mpr rfl)
  have hmove := driverStep_move hstep
  refine ⟨catalogueInv_move hmove ht, hlive'', ?_⟩
  rcases driverMove_catalogue hmove ht with ⟨hconf, _⟩ | ⟨content, hreads, _⟩ | ⟨_, hzero, _⟩
  · rw [← hsame, catalogue, hconf, catalogue]
  · -- The file is read when there is no session.
    exact absurd hreads.2.1 hlive'
  · exact absurd hzero hlive''

/-! ## What a client sees -/

/-- The handles of the first devices of a session, one behind the other. -/
def deviceHandles (addr : DeviceHandle → Nat) (h count : Nat) : List UInt8 :=
  (List.range count).flatMap (fun i => sizeTBytes (addr { session := h, index := i }))

/-- A client that asks a session for its devices, and each device for its ID,
    reads these IDs. -/
structure Exposes (addr : DeviceHandle → Nat) (s : DriverState) (h : Nat)
    (ids : List (List UInt8)) : Prop where
  /-- The number of devices, from a probe for their handles. -/
  devices : sessionQuerySessionProperty addr s (some h) SessionProperty.devices
      { size := 0, value := none, sizeRet := true } =
    .ok { status := .success, sizeRet := some (ids.length * 8) }
  /-- The handles, read into a buffer with room for them. -/
  handles : ∀ (buf : Buffer) ret, buf ≠ [] → ids.length * 8 ≤ buf.length →
    sessionQuerySessionProperty addr s (some h) SessionProperty.devices
        { size := buf.length, value := some buf, sizeRet := ret } =
      .ok { status := .success,
            value := some (deviceHandles addr h ids.length ++ buf.drop (ids.length * 8)),
            sizeRet := if ret then some (ids.length * 8) else none }
  /-- The ID of the device behind each handle, read into a buffer of its size. -/
  deviceId : ∀ i id, ids[i]? = some id → ∀ env buf, buf.length = id.length + 1 →
    deviceQueryDeviceProperty s env (some { session := h, index := i }) DeviceProperty.id.code
        { size := buf.length, value := some buf, sizeRet := false } =
      .ok ({ reply := .ok { status := .success, value := some (id ++ [0]) }, events := [] }, s)

theorem length_deviceHandles (addr : DeviceHandle → Nat) (h count : Nat) :
    (deviceHandles addr h count).length = count * 8 := by
  rw [deviceHandles, List.length_flatMap]
  simp only [sizeTBytes, length_leBytes, List.map_const', List.sum_replicate_nat,
    List.length_range]

/-- An initialized session hands out the handles of its devices. -/
theorem sessionQuerySessionProperty_devices {s : DriverState} {h : Nat} {sess : Session}
    (hget : s.sessions.get? h = some sess) (hst : sess.status = .initialized) (out : OutArgs) :
    sessionQuerySessionProperty addr s (some h) SessionProperty.devices out =
      if out.degenerate then .ok (out.reject .errorInvalidargument)
      else respond out (sess.deviceList.length * 8)
        (fun cur => cur.puts (deviceHandles addr h sess.deviceList.length)) := by
  have hvalid : isInvalidEnumValue SessionProperty.devices SessionProperty.max = false := by
    decide
  have hwrite : (fun cur : Cursor => (List.range sess.deviceList.length).foldlM
        (fun cur i => cur.puts (sizeTBytes (addr { session := h, index := i }))) cur) =
      fun cur => cur.puts (deviceHandles addr h sess.deviceList.length) :=
    funext (fun cur => foldlM_puts _ _ _ (fun _ _ _ => rfl) cur)
  simp only [sessionQuerySessionProperty, hvalid, hget, hst, Bool.or_false, ne_eq,
    not_true_eq_false, if_false, hwrite]

theorem queryDeviceId_answers (d : Device) : Answers (queryDeviceId d) (d.id ++ [0]) :=
  respond_puts_answers (by rw [List.length_append, List.length_singleton]) (fun _ _ => rfl)

/-- An initialized session exposes the IDs of its devices. -/
theorem exposes_ids {s : DriverState} {h : Nat} {sess : Session}
    (hget : s.sessions.get? h = some sess) (hst : sess.status = .initialized) :
    Exposes addr s h sess.ids := by
  have hcount : sess.ids.length = sess.deviceList.length := List.length_map _
  refine ⟨?_, fun buf ret hne hle => ?_, fun i id hi env buf hbuf => ?_⟩
  · rw [sessionQuerySessionProperty_devices hget hst, hcount]
    rfl
  · rw [hcount] at hle
    have hpos := List.length_pos_iff.mpr hne
    have hroom : ¬ (buf.length == 0) = true := by
      rw [beq_iff_eq]
      omega
    have hfits : (Cursor.start buf).pos +
        (deviceHandles addr h sess.deviceList.length).length ≤ (Cursor.start buf).buf.length := by
      rw [length_deviceHandles]
      simp only [Cursor.start]
      omega
    rw [sessionQuerySessionProperty_devices hget hst, hcount]
    simp only [OutArgs.degenerate, Option.isSome_some, Bool.true_and, if_neg hroom, respond,
      if_neg (Nat.not_lt.mpr hle), Cursor.puts_ok _ _ hfits, bind, Except.bind,
      Cursor.written_start, length_deviceHandles, OutArgs.reported]
  · rw [Session.ids, List.getElem?_map, Option.map_eq_some_iff] at hi
    rcases hi with ⟨d, hd, rfl⟩
    have hat : deviceAt s { session := h, index := i } = some (sess, d) := by
      simp only [deviceAt, hget, Option.bind_some, hd, Option.map_some]
    have hlen : (d.id ++ [0]).length = buf.length := by
      rw [List.length_append, List.length_singleton, hbuf]
    rcases (queryDeviceId_answers d).fits buf false (by omega) (Nat.le_of_eq hlen) with
      ⟨rest, hrest, hquery⟩
    -- The buffer has room for the ID and no more.
    have hnil : rest = [] := List.length_eq_zero_iff.mp (by omega)
    simp only [deviceQueryDeviceProperty, if_true, hat, hquery, hnil, List.append_nil, Except.map,
      Bool.false_eq_true, if_false]

/-! ## Who looks at the configuration -/

/-- The same call with another configuration. -/
def DriverCall.withConfig (c : DriverCall) (config : ConfigSource) : DriverCall :=
  { c with env := { c.env with config } }

/-- Only the allocation that counts from zero looks at the configuration. -/
theorem driverStep_config {s : DriverState} {c : DriverCall}
    (h : ¬ (c.op = .sessionAlloc true ∧ s.count = 0)) (config : ConfigSource) :
    driverStep addr s (c.withConfig config) = driverStep addr s c := by
  rcases c with ⟨op, env⟩
  cases op with
  | sessionAlloc session =>
      cases session with
      | false => rfl
      | true =>
          have hpos : s.count ≠ 0 := fun hzero => h ⟨rfl, hzero⟩
          simp only [driverStep, DriverCall.withConfig, sessionAlloc, if_neg hpos]
  | _ => rfl

/-! ## The catalogue of a run -/

/-- A step that initializes a session. -/
def Initializes (e : DriverEntry) (h : Nat) : Prop :=
  e.label.op = .sessionInit (some h) ∧ Succeeds e.out.reply

/-- What a run says about the catalogue. -/
structure Catalogued (addr : DeviceHandle → Nat) (tr : List DriverEntry) (s : DriverState) :
    Prop where
  /-- An initialized session exposes the IDs that were read from the configuration
      when there was no session, in its order. There have been sessions since. -/
  exposed : ∀ h sess, s.sessions.get? h = some sess → sess.status = .initialized →
    ∃ e content ids, CurrentConfig tr e content ∧ ReadFrom e.label.env.mem content ids ∧
      Exposes addr s h ids
  /-- Two sessions that are initialized with no moment without sessions in
      between expose the same IDs, each for as long as it lives. -/
  agree : ∀ before e₁ mid e₂ after h₁ h₂, tr = before ++ e₁ :: (mid ++ e₂ :: after) →
    Initializes e₁ h₁ → Initializes e₂ h₂ → (∀ e ∈ mid, e.post.sessions.count ≠ 0) →
    ∃ ids, (∀ e ∈ e₁ :: (mid ++ e₂ :: after), e.post.sessions.get? h₁ ≠ none →
        Exposes addr e.post h₁ ids) ∧
      ∀ e ∈ e₂ :: after, e.post.sessions.get? h₂ ≠ none → Exposes addr e.post h₂ ids
  /-- No other step looks at the configuration. -/
  unread : ∀ e ∈ tr, ¬ (e.label.op = .sessionAlloc true ∧ e.pre.sessions.count = 0) →
    ∀ config, driverStep addr e.pre (e.label.withConfig config) = .ok (e.out, e.post)
  /-- The devices are replaced by the step that reads it, and the last session
      leaves none. -/
  replaced : ∀ e ∈ tr, e.post.configuredDevices ≠ e.pre.configuredDevices →
    (∃ content, Reads e content) ∨
      (e.post.configuredDevices = [] ∧ e.post.sessions.count = 0)
  /-- An allocation without sessions uses the configuration as it is then. -/
  fresh : ∀ e ∈ tr, e.label.op = .sessionAlloc true → e.pre.sessions.count = 0 →
    Succeeds e.out.reply → ∃ content, e.label.env.config = .text content ∧
      ReadFrom e.label.env.mem content (catalogue e.post)

/-- The session a step initializes exposes the catalogue for as long as it
    lives. -/
theorem initializes_exposes {e : DriverEntry} {h : Nat} (hinit : Initializes e h)
    (hstep : driverStep addr e.pre e.label = .ok (e.out, e.post)) (hinv : CatalogueInv e.pre) :
    e.post.sessions.count ≠ 0 ∧ ∀ tr u, Runs (driverStep addr) e.post tr u →
      u.sessions.get? h ≠ none → Exposes addr u h (catalogue e.post) := by
  have hmove := driverStep_move hstep
  rcases sessionInit_succeeds hmove hinit.1 hinit.2 with ⟨_, token, devices, _, _, _, hpost⟩
  refine ⟨fun hzero => ?_, fun tr u hrun hlive => ?_⟩
  · rw [Heap.count_eq_zero hzero] at hpost
    exact absurd hpost (by simp only [reduceCtorEq, not_false_eq_true])
  · rcases hget : u.sessions.get? h with _ | sess
    · exact absurd hget hlive
    -- It is the session as it was initialized.
    have hkept := kept_of_runs hrun hpost rfl hget
    rw [← (catalogueInv_move hmove hinv).listed h _ hpost rfl, ← hkept]
    exact exposes_ids hget (hkept ▸ rfl)

/-- Two sessions that are initialized with no moment without sessions in between
    expose the same IDs. -/
theorem driverRuns_agree {tr before mid after : List DriverEntry} {s : DriverState}
    {e₁ e₂ : DriverEntry} {h₁ h₂ : Nat} (hrun : DriverRuns addr tr s)
    (htr : tr = before ++ e₁ :: (mid ++ e₂ :: after)) (hinit₁ : Initializes e₁ h₁)
    (hinit₂ : Initializes e₂ h₂) (hlive : ∀ e ∈ mid, e.post.sessions.count ≠ 0) :
    ∃ ids, (∀ e ∈ e₁ :: (mid ++ e₂ :: after), e.post.sessions.get? h₁ ≠ none →
        Exposes addr e.post h₁ ids) ∧
      ∀ e ∈ e₂ :: after, e.post.sessions.get? h₂ ≠ none → Exposes addr e.post h₂ ids := by
  rw [htr] at hrun
  rcases runs_at hrun with ⟨hbefore, hstep₁, hrest⟩
  rcases runs_at hrest with ⟨hmid, hstep₂, hafter⟩
  have hinv₁ := (driverRuns_current hbefore).1
  have hinv₁' := catalogueInv_move (driverStep_move hstep₁) hinv₁
  rcases initializes_exposes hinit₁ hstep₁ hinv₁ with ⟨hcount₁, hids₁⟩
  have hinv₂ := (driverRuns_current (runs_append (Runs.snoc hbefore hstep₁) hmid)).1
  rcases initializes_exposes hinit₂ hstep₂ hinv₂ with ⟨hcount₂, hids₂⟩
  -- Between the two initializations the catalogue stays, as sessions are alive throughout.
  have hsame : catalogue e₂.post = catalogue e₁.post := by
    refine runs_catalogue (Runs.snoc hmid hstep₂) hinv₁' hcount₁ ?_
    exact List.forall_mem_append.mpr ⟨hlive, fun e he => List.mem_singleton.mp he ▸ hcount₂⟩
  refine ⟨catalogue e₁.post, fun e he hget => ?_, fun e he hget => ?_⟩
  · rcases List.mem_cons.mp he with heq | hin
    · rw [heq] at hget ⊢
      exact hids₁ [] e₁.post Runs.refl hget
    · rcases runs_mem hrest hin with ⟨tr₁, _, _, hupto, hs, _⟩
      exact hids₁ _ e.post (Runs.snoc hupto hs) hget
  · rw [← hsame]
    rcases List.mem_cons.mp he with heq | hin
    · rw [heq] at hget ⊢
      exact hids₂ [] e₂.post Runs.refl hget
    · rcases runs_mem hafter hin with ⟨tr₁, _, _, hupto, hs, _⟩
      exact hids₂ _ e.post (Runs.snoc hupto hs) hget

/-- In every run of clients, however the configuration changes between calls,
    sessions that live at a time show one catalogue of devices. -/
theorem driverRuns_catalogued (addr : DeviceHandle → Nat) (tr : List DriverEntry) (s : DriverState)
    (hrun : DriverRuns addr tr s) : Catalogued addr tr s := by
  -- Every call of the run starts from a state with the invariant.
  have hmember : ∀ e ∈ tr, DriverMove e.pre e.label e.out e.post ∧ CatalogueInv e.pre ∧
      driverStep addr e.pre e.label = .ok (e.out, e.post) := by
    intro e he
    rcases runs_mem hrun he with ⟨_, _, _, hbefore, hstep, _⟩
    exact ⟨driverStep_move hstep, (driverRuns_current hbefore).1, hstep⟩
  refine ⟨fun h sess hget hst => ?_, fun _ _ _ _ _ _ _ => driverRuns_agree hrun,
    fun e he hother config => ?_, fun e he hne => ?_, fun e he hop hzero hsucc => ?_⟩
  · rcases driverRuns_current hrun with ⟨hinv, hcurrent⟩
    have hlive : s.sessions.count ≠ 0 := by
      intro hzero
      rw [Heap.count_eq_zero hzero] at hget
      exact absurd hget (by simp only [reduceCtorEq, not_false_eq_true])
    rcases hcurrent hlive with ⟨e, content, hconfig, hread⟩
    refine ⟨e, content, _, hconfig, hread, ?_⟩
    rw [← hinv.listed h sess hget hst]
    exact exposes_ids hget hst
  · rcases hmember e he with ⟨_, hinv, hstep⟩
    rw [← hinv.counter] at hother
    rw [driverStep_config hother, hstep]
  · rcases hmember e he with ⟨hmove, hinv, _⟩
    rcases driverMove_catalogue hmove hinv with
      ⟨hsame, _⟩ | ⟨content, hreads, _⟩ | ⟨hnil, hzero, _⟩
    · exact absurd hsame hne
    · exact Or.inl ⟨content, hreads⟩
    · exact Or.inr ⟨hnil, hzero⟩
  · rcases hmember e he with ⟨hmove, hinv, _⟩
    rcases driverMove_catalogue hmove hinv with
      ⟨_, _, hfail⟩ | ⟨content, hreads, hread⟩ | ⟨_, _, hne⟩
    · exact absurd hsucc (hfail hop hzero)
    · exact ⟨content, hreads.2.2.2, hread⟩
    · exact absurd hop hne

end

/-- The file now has one device. -/
def laterEnv : DriverEnv := { sampleEnv with config := .text (ascii "lib A three") }

/-- The calls that give a client an initialized session. -/
def openSession (h : Nat) (env : DriverEnv) : List DriverCall := [
  ⟨.sessionAlloc true, env⟩,
  ⟨.sessionSetParameter (some h) SessionParameter.token 2 (some (fun _ => 7)), env⟩,
  ⟨.sessionInit (some h), env⟩]

/-- Two sessions live at a time, and the file changes between them. A third one
    follows when they are gone. -/
def catalogueCalls : List DriverCall :=
  openSession 0 sampleEnv ++ openSession 1 laterEnv ++
    [⟨.sessionFree (some 0), laterEnv⟩, ⟨.sessionFree (some 1), laterEnv⟩] ++
    openSession 2 laterEnv

/-- The run of these calls, with the IDs of the sessions as each is initialized. -/
theorem driverRuns_catalogued_sample :
    ∃ tr s, DriverRuns (fun _ => 0) tr s ∧ tr.map Entry.label = catalogueCalls ∧
      [(2, 0), (5, 1), (10, 2)].map (fun k : Nat × Nat =>
        (tr[k.1]?.bind (fun e => e.post.sessions.get? k.2)).map Session.ids) =
        [some [ascii "one", ascii "two"], some [ascii "one", ascii "two"],
          some [ascii "three"]] ∧
      Catalogued (fun _ => 0) tr s := by
  rcases driverRuns_evaluated catalogueCalls
    (fun r => some ([(2, 0), (5, 1), (10, 2)].map (fun k : Nat × Nat =>
      (r.1[k.1]?.bind (fun e => e.post.sessions.get? k.2)).map Session.ids)))
    [some [ascii "one", ascii "two"], some [ascii "one", ascii "two"], some [ascii "three"]]
    rfl with ⟨tr, s, hrun, hlabels, hids⟩
  exact ⟨tr, s, hrun, hlabels, Option.some.inj hids,
    driverRuns_catalogued (fun _ => 0) tr s hrun⟩

end Driver

end Qdmi
