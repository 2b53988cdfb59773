import Qdmi.Core.Device.Property

/-!
# Job Operations

The functions of the device job interface that configure a job and move it
through its life.

`deviceJobSetPrograms` and `deviceJobSubmit` build their new value aside and
assign it when nothing can fail any more. The loops that build it are
`copyPrograms` and `prepareResults`; both stop at the first program that
fails, and what they had built is dropped.

Every amplitude costs two values of the generator. They are drawn program by
program, so a submission that fails at some program has used up the values of
the programs before it.

## Main definitions

* `validFormat`, `supportedFormat`, `validProgram`: The argument checks.
* `copyPrograms`: The copying loop of `set_programs`.
* `deviceSessionCreateDeviceJob`, `deviceJobFree`: The life of a job.
* `deviceJobSetParameter`, `deviceJobSetPrograms`: Configuring a job.
* `deviceJobGetProgramStatus`: The per-program status, which is not supported.
* `deviceJobGetProgram`, `deviceJobQueryProperty`: Reading a job back.
* `markerIndex`, `outputIndex`, `paddedShot`, `randomStateVec`, `prepareResult`,
  `prepareResults`: The results of a job.
* `deviceJobSubmit`, `deviceJobCancel`, `deviceJobCheck`, `deviceJobWait`: The
  transitions of a job.
-/

namespace Qdmi

variable {R : Type}

/-! ## Configuration -/

/-- `Valid_format`. -/
def validFormat (format : Nat) : Bool :=
  decide (format < ProgramFormat.max.code) ||
    (decide (ProgramFormat.custom1.code ≤ format) && decide (format ≤ ProgramFormat.custom5.code))

/-- `Supported_format`. -/
def supportedFormat (format : Nat) : Bool := supportedProgramFormats.contains format

/-- `Valid_program`. A text program ends at its only `'\0'`; a binary program
    is any nonempty byte sequence. -/
def validProgram (format size : Nat) (program : Option (Nat → UInt8)) : Bool :=
  match program with
  | none => false
  | some bytes =>
    if size = 0 then false
    else if format ≠ ProgramFormat.qasm2.code ∧ format ≠ ProgramFormat.qirbasestring.code then true
    else bytes (size - 1) == 0 && (List.range (size - 1)).all (fun i => bytes i != 0)

/-- The `i`-th turn of the copying loop of `set_programs`. The vector was
    reserved by the call's first allocation, so each turn makes one more. -/
def copyProgram (env : Env R) (format : Nat) (sizes : Nat → Nat)
    (programs : Nat → Option (Nat → UInt8)) (i : Nat) : Except Abort (List UInt8) :=
  if !validProgram format (sizes i) (programs i) then .error (.returned .errorInvalidargument)
  else if vectorMaxSize 1 < sizes i then .error (.thrown .lengthError)
  else if !env.mem (i + 1) then .error (.thrown .badAlloc)
  else .ok (readBytes ((programs i).getD (fun _ => 0)) (sizes i))

/-- The `try` block of `set_programs`. -/
def copyPrograms (env : Env R) (format count : Nat) (sizes : Nat → Nat)
    (programs : Nat → Option (Nat → UInt8)) : Except Abort (List (List UInt8)) :=
  if vectorMaxSize 24 < count then .error (.thrown .lengthError)
  else if !env.mem 0 then .error (.thrown .badAlloc)
  else (List.range count).mapM (copyProgram env format sizes programs)

/-- `CXX_QDMI_device_session_create_device_job`. -/
def deviceSessionCreateDeviceJob (s : DeviceState R) (env : Env R) (session : Option Nat)
    (job : Bool) : Result (DeviceState R) :=
  match session with
  | none => answer .errorInvalidargument s
  | some h =>
    if !job then answer .errorInvalidargument s
    else
      match s.sessions.get? h with
      | none => .error .danglingHandle
      | some sess =>
        if sess.status ≠ .initialized then answer .errorBadstate s
        else if !env.mem 0 then raise .badAlloc s
        else .ok (.ok { status := .success, handle := some s.jobs.next },
          { s with
            gen := s.gen + 1
            jobs := s.jobs.alloc { session := h, id := env.jobId.val, status := .created } })

/-- `CXX_QDMI_device_session_retrieve_device_job_by_id`. -/
def deviceSessionRetrieveDeviceJobById (s : DeviceState R) : Result (DeviceState R) :=
  answer .errorNotsupported s

/-- `CXX_QDMI_device_job_free`. -/
def deviceJobFree (s : DeviceState R) (job : Option Nat) : Result (DeviceState R) :=
  match job with
  | none => answer .success s
  | some h =>
    match s.jobs.get? h with
    | none => .error .danglingHandle
    | some _ => answer .success { s with jobs := s.jobs.free h }

/-- `CXX_QDMI_device_job_set_parameter`. -/
def deviceJobSetParameter (s : DeviceState R) (job : Option Nat) (param size : Nat)
    (value : Option (Nat → UInt8)) : Result (DeviceState R) :=
  match job with
  | none => answer .errorInvalidargument s
  | some h =>
    if value.isSome && size == 0 then answer .errorInvalidargument s
    else if isInvalidEnumValue param DeviceJobParameter.max then answer .errorInvalidargument s
    else
      match s.jobs.get? h with
      | none => .error .danglingHandle
      | some jb =>
        if jb.status ≠ .created then answer .errorBadstate s
        else if param ≠ DeviceJobParameter.shotsnum then answer .errorNotsupported s
        else
          match value with
          | none => answer .success s
          | some v =>
            if size ≠ 8 then answer .errorInvalidargument s
            else answer .success
              { s with jobs := s.jobs.set h { jb with numShots := leNat (readBytes v 8) } }

/-- `CXX_QDMI_device_job_set_programs`. -/
def deviceJobSetPrograms (s : DeviceState R) (env : Env R) (job : Option Nat)
    (format count : Nat) (sizes : Option (Nat → Nat))
    (programs : Option (Nat → Option (Nat → UInt8))) : Result (DeviceState R) :=
  match job with
  | none => answer .errorInvalidargument s
  | some h =>
    if count = 0 ∨ validFormat format = false then answer .errorInvalidargument s
    else
      match s.jobs.get? h with
      | none => .error .danglingHandle
      | some jb =>
        if jb.status ≠ .created then answer .errorBadstate s
        else if supportedFormat format = false then answer .errorNotsupported s
        else
          match programs with
          | none => answer .success s
          | some progs =>
            match sizes with
            | none => answer .errorInvalidargument s
            | some szs =>
              match copyPrograms env format count szs progs with
              | .error (.returned status) => answer status s
              | .error (.thrown .badAlloc) => answer .errorOutofmem s
              | .error (.thrown .lengthError) => answer .errorInvalidargument s
              | .error (.thrown e) => raise e s
              | .ok newPrograms => answer .success
                  { s with jobs := s.jobs.set h { jb with format, programs := newPrograms } }

/-! ## Reading a job back -/

/-- `CXX_QDMI_device_job_get_program`. -/
def deviceJobGetProgram (s : DeviceState R) (job : Option Nat) (programIndex : Nat)
    (out : OutArgs) : Except Fault Reply :=
  match job with
  | none => .ok (out.reject .errorInvalidargument)
  | some h =>
    match s.jobs.get? h with
    | none => .error .danglingHandle
    | some jb =>
      if jb.programs = [] then .ok (out.reject .errorBadstate)
      else
        match jb.programs[programIndex]? with
        | none => .ok (out.reject .errorOutofrange)
        | some program => respond out program.length (fun cur => cur.puts program)

/-- `CXX_QDMI_device_job_get_program_status`. -/
def deviceJobGetProgramStatus (s : DeviceState R) (job : Option Nat) (programIndex : Nat) :
    Result (DeviceState R) :=
  match job with
  | none => answer .errorInvalidargument s
  | some h =>
    match s.jobs.get? h with
    | none => .error .danglingHandle
    | some jb =>
      if jb.programs = [] then answer .errorBadstate s
      else if jb.programs.length ≤ programIndex then answer .errorOutofrange s
      else answer .errorNotsupported s

/-- `std::to_string` of a nonnegative `int`. -/
def toCString (n : Nat) : CString where
  chars := (Nat.toDigits 10 n).map (fun c => UInt8.ofNat c.toNat)
  noNul := by
    intro b hb h
    rcases List.mem_map.mp hb with ⟨c, hc, rfl⟩
    have hdigit := Nat.isDigit_of_mem_toDigits (by decide) (by decide) hc
    simp only [Char.isDigit, ge_iff_le, Bool.and_eq_true, decide_eq_true_eq] at hdigit
    have hlo : 48 ≤ c.toNat := hdigit.1
    have hhi : c.toNat ≤ 57 := hdigit.2
    have hnat := congrArg UInt8.toNat h
    rw [UInt8.toNat_ofNat', UInt8.toNat_zero] at hnat
    omega

/-- `CXX_QDMI_device_job_query_property`. -/
def deviceJobQueryProperty (s : DeviceState R) (job : Option Nat) (prop : Nat) (out : OutArgs) :
    Except Fault Reply :=
  match job with
  | none => .ok (out.reject .errorInvalidargument)
  | some h =>
    if out.degenerate || isInvalidEnumValue prop DeviceJobProperty.max then
      .ok (out.reject .errorInvalidargument)
    else
      match s.jobs.get? h with
      | none => .error .danglingHandle
      | some jb =>
        addStringProperty DeviceJobProperty.id.code (toCString jb.id) prop out <|
        if prop = DeviceJobProperty.programformat.code ∧ jb.format = ProgramFormat.max.code then
          .ok (out.reject .errorBadstate)
        else
          addSingleValueProperty DeviceJobProperty.programformat.code (enumBytes jb.format) prop
            out <|
          addSingleValueProperty DeviceJobProperty.shotsnum.code (sizeTBytes jb.numShots) prop
            out <|
          if prop = DeviceJobProperty.programsnum.code ∧ jb.programs = [] then
            .ok (out.reject .errorBadstate)
          else
            addSingleValueProperty DeviceJobProperty.programsnum.code
              (sizeTBytes jb.programs.length) prop out <|
            .ok (out.reject .errorNotsupported)

/-! ## Submission -/

/-- `shot_outputs`. -/
def shotOutputs : List (List UInt8) := [ascii "01", ascii "10", ascii "11", ascii "00"]

/-- The `output_index` a program of several is given by its marker, the last
    byte or the one before a text program's terminator. -/
def markerIndex (format : Nat) (program : List UInt8) : Except Exn Nat :=
  let back := if format ≠ ProgramFormat.qirbasemodule.code ∧ 1 < program.length then 2 else 1
  -- On an empty program the index wraps around and `at` throws.
  match program[(program.length + sizeTMod - back) % sizeTMod]? with
  | none => .error .outOfRange
  | some marker => .ok (marker.toNat % 4)

/-- The `output_index` of a program; a single program has the first. -/
def outputIndex (jb : DeviceJob R) (program : List UInt8) : Except Exn Nat :=
  if 1 < jb.programs.length then markerIndex jb.format program else .ok 0

/-- The bitstring every shot of a program yields: an output padded in front.
    The pad is computed in `size_t` and wraps around on too few qubits. -/
def paddedShot (numQubits index : Nat) : Except Exn (List UInt8) :=
  match shotOutputs[index]? with
  | none => .error .outOfRange
  | some shot =>
    let pad := (numQubits + sizeTMod - shot.length) % sizeTMod
    if vectorMaxSize 1 < shot.length + pad then .error .lengthError
    else .ok (List.replicate pad 48 ++ shot)

section

variable [Zero R] [Add R] [Mul R] [Div R] [DoubleRepr R]

/-- `std::norm` of an amplitude: the square of its modulus. -/
def cnorm (c : R × R) : R := c.1 * c.1 + c.2 * c.2

/-- A normalized random state vector, from the values drawn for it. -/
def randomStateVec (draws : Nat → R) (dim : Nat) : List (R × R) :=
  let raw := (List.range dim).map (fun i => (draws (2 * i), draws (2 * i + 1)))
  let norm := DoubleRepr.sqrt (raw.foldl (fun acc c => acc + cnorm c) 0)
  raw.map (fun c => (c.1 / norm, c.2 / norm))

/-- One turn of the loop of `submit`, for the program at index `i`. The turn
    makes two allocations, one for the shots and one for the state vector. -/
def prepareResult (env : Env R) (jb : DeviceJob R) (numQubits i : Nat) (program : List UInt8) :
    Except Exn (ResultData R) := do
  let index ← outputIndex jb program
  let shot ← paddedShot numQubits index
  if vectorMaxSize 32 < jb.numShots then .error .lengthError
  else if jb.numShots ≠ 0 ∧ env.mem (2 * i + 1) = false then .error .badAlloc
  else if env.mem (2 * i + 2) = false then .error .badAlloc
  else .ok {
    shots := List.replicate jb.numShots shot
    stateVec := randomStateVec (fun k => env.real (2 * 2 ^ numQubits * i + k)) (2 ^ numQubits) }

/-- The loop of `submit` over the programs from index `i` on, with the number
    of turns that were completed. -/
def prepareResults (env : Env R) (jb : DeviceJob R) (numQubits : Nat) :
    Nat → List (List UInt8) → Except Exn (List (ResultData R)) × Nat
  | _, [] => (.ok [], 0)
  | i, program :: rest =>
    match prepareResult env jb numQubits i program with
    | .error e => (.error e, 0)
    | .ok result =>
      let (tail, turns) := prepareResults env jb numQubits (i + 1) rest
      (tail.map (fun results => result :: results), turns + 1)

/-- The `try` block of `submit`. -/
def submitResults (env : Env R) (jb : DeviceJob R) (numQubits : Nat) :
    Except Exn (List (ResultData R)) × Nat :=
  if vectorMaxSize 48 < jb.programs.length then (.error .lengthError, 0)
  else if env.mem 0 = false then (.error .badAlloc, 0)
  else prepareResults env jb numQubits 0 jb.programs

/-- `num_qubits` after the query in `submit`, whose status is not looked at. -/
def submitQubits (img : Image) (s : DeviceState R) (session : Nat) : Except Fault Nat := do
  let reply ← deviceSessionQueryDeviceProperty img s (some session) DeviceProperty.qubitsnum.code
    { size := 8, value := some (sizeTBytes 0), sizeRet := false }
  .ok (leNat (reply.value.getD []))

/-- `CXX_QDMI_device_job_submit`. -/
def deviceJobSubmit (img : Image) (s : DeviceState R) (env : Env R) (job : Option Nat) :
    Result (DeviceState R) :=
  match job with
  | none => answer .errorInvalidargument s
  | some h =>
    match s.jobs.get? h with
    | none => .error .danglingHandle
    | some jb =>
      if jb.status ≠ .created then answer .errorInvalidargument s
      else if jb.programs = [] then answer .errorBadstate s
      else
        match submitQubits img s jb.session with
        | .error fault => .error fault
        | .ok numQubits =>
          if 32 ≤ numQubits then .error .shiftCount
          else
            let (results, turns) := submitResults env jb numQubits
            let s := { s with gen := s.gen + turns * (2 * 2 ^ numQubits) }
            match results with
            | .error .badAlloc => answer .errorOutofmem s
            | .error _ => answer .errorFatal s
            | .ok results => answer .success
                { s with
                  status := .busy
                  jobs := s.jobs.set h { jb with results, status := .running } }

end

/-- `CXX_QDMI_device_job_cancel`. -/
def deviceJobCancel (s : DeviceState R) (job : Option Nat) : Result (DeviceState R) :=
  match job with
  | none => answer .errorInvalidargument s
  | some h =>
    match s.jobs.get? h with
    | none => .error .danglingHandle
    | some jb =>
      if jb.status = .done then answer .errorInvalidargument s
      else answer .success
        { s with status := .idle, jobs := s.jobs.set h { jb with status := .canceled } }

/-- `CXX_QDMI_device_job_check`. A running job draws a bit, and is done when
    the bit is set. -/
def deviceJobCheck (s : DeviceState R) (env : Env R) (job : Option Nat) (status : Bool) :
    Result (DeviceState R) :=
  match job with
  | none => answer .errorInvalidargument s
  | some h =>
    if !status then answer .errorInvalidargument s
    else
      match s.jobs.get? h with
      | none => .error .danglingHandle
      | some jb =>
        if jb.status ≠ .running then
          .ok (.ok { status := .success, jobStatus := some jb.status }, s)
        else if env.bit then
          .ok (.ok { status := .success, jobStatus := some .done },
            { s with
              gen := s.gen + 1
              status := .idle
              jobs := s.jobs.set h { jb with status := .done } })
        else
          .ok (.ok { status := .success, jobStatus := some jb.status }, { s with gen := s.gen + 1 })

/-- `CXX_QDMI_device_job_wait`. The timeout is not used. -/
def deviceJobWait (s : DeviceState R) (job : Option Nat) : Result (DeviceState R) :=
  match job with
  | none => answer .errorInvalidargument s
  | some h =>
    match s.jobs.get? h with
    | none => .error .danglingHandle
    | some jb =>
      if jb.status = .done ∨ jb.status = .canceled ∨ jb.status = .failed then answer .success s
      else answer .success
        { s with status := .idle, jobs := s.jobs.set h { jb with status := .done } }

end Qdmi
