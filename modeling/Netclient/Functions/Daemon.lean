import Mathlib.Data.List.Basic
/-!
# Functions — the NAT type, detected once per process

`Daemon` calls `getNatInfo` when it starts and again after each `SIGHUP`
reset, and writes the netclient config when it returns `true`. `getNatInfo`
reads the netclient config and the server map from disk and ranges over the
servers; at each one, while the package's `hostNatInfo` is `nil`, it asks
STUN for the host's NAT type through that server's STUN list and keeps the
answer in `hostNatInfo`. It returns `true`, after setting the in-memory NAT
type, when the answer differs from the type on disk or that is empty.
Nothing sets `hostNatInfo` back to `nil`.

So STUN is asked once in the daemon's life, resets included, and the NAT
type is updated at most once (`natRun_stun_at_most_once`): after the first
answer every call returns `false` and changes nothing (`natRun_of_some`),
so a reset never detects the NAT type again.
-/

namespace Netclient

namespace Functions

/-- An `ncmodels.HostInfo`, with the field `getNatInfo` reads. -/
structure HostInfo where
  natType : String
  deriving DecidableEq, Repr

/-- A `config.Server`, with the field `getNatInfo` reads. -/
structure StunServer where
  stunList : List String
  deriving DecidableEq, Repr

/-- What one call of `getNatInfo` reads from outside: the NAT type in the
netclient config on disk or the read's error, `config.ReadServerConf`'s
error, `config.Servers` in the order the loop visits it,
`ncutils.GetFreePort`'s result, and `stun.GetHostNatInfo`. -/
structure NatReplies where
  readNetclientConfig : Except String String
  readServerConf : Option String
  servers : List StunServer
  getFreePort : Except String Nat
  getHostNatInfo : List String → String → Nat → HostInfo

/-- What `getNatInfo` reads and writes: `hostNatInfo`, and the fields of
`config.Netclient()` it uses. `queries` records the STUN queries made so
far, each by its STUN list and port. -/
structure NatState where
  hostNatInfo : Option HostInfo
  natType : String
  listenPort : Nat
  endpointIP : String
  queries : List (List String × Nat)

/-- The daemon's state when it starts: `hostNatInfo` is `nil`. -/
def NatState.init (natType : String) (listenPort : Nat) (endpointIP : String) : NatState :=
  ⟨none, natType, listenPort, endpointIP, []⟩

/-- The `for _, server := range config.Servers` loop of `getNatInfo`, with
`ncNatType` the NAT type read from disk. -/
def natLoop (ncNatType : String) (rep : NatReplies) : List StunServer → NatState → Bool × NatState
  | [], s => (false, s)
  | server :: servers, s =>
    match s.hostNatInfo with
    | some _ => natLoop ncNatType rep servers s
    | none =>
      let portToStun := match rep.getFreePort with
        | .ok p => if p = 0 then s.listenPort else p
        | .error _ => s.listenPort
      let info := rep.getHostNatInfo server.stunList s.endpointIP portToStun
      let s : NatState := ⟨some info, s.natType, s.listenPort, s.endpointIP,
        s.queries ++ [(server.stunList, portToStun)]⟩
      if ncNatType.length = 0 ∨ ncNatType ≠ info.natType then (true, { s with natType := info.natType })
      else natLoop ncNatType rep servers s

/-- `getNatInfo`: whether it updated the NAT type, and the state after it. -/
def getNatInfo (s : NatState) (rep : NatReplies) : Bool × NatState :=
  match rep.readNetclientConfig with
  | .error _ => (false, s)
  | .ok ncNatType =>
    match rep.readServerConf with
    | some _ => (false, s)
    | none => natLoop ncNatType rep rep.servers s

/-- The daemon's calls of `getNatInfo`, at its start and after each reset:
what each returns, and the state after the last. -/
def natRun : NatState → List NatReplies → List Bool × NatState
  | s, [] => ([], s)
  | s, rep :: reps => ((getNatInfo s rep).1 :: (natRun (getNatInfo s rep).2 reps).1,
    (natRun (getNatInfo s rep).2 reps).2)

variable {s : NatState} {ncNatType : String} {rep : NatReplies}

/-! ## One call -/

/-- Once `hostNatInfo` is set, the loop does nothing. -/
theorem natLoop_of_some {i : HostInfo} (h : s.hostNatInfo = some i) :
    ∀ servers, natLoop ncNatType rep servers s = (false, s)
  | [] => rfl
  | _ :: servers => by
    simp only [natLoop, h]
    exact natLoop_of_some h servers

theorem getNatInfo_of_some {i : HostInfo} (h : s.hostNatInfo = some i) (rep : NatReplies) :
    getNatInfo s rep = (false, s) := by
  unfold getNatInfo
  split
  · rfl
  · split
    · rfl
    · exact natLoop_of_some h _

/-- While `hostNatInfo` is `nil`, a call changes nothing and returns
`false`, or sets it after one query. -/
theorem getNatInfo_of_none (h : s.hostNatInfo = none) (rep : NatReplies) :
    getNatInfo s rep = (false, s) ∨ ∃ i q, (getNatInfo s rep).2.hostNatInfo = some i ∧
      (getNatInfo s rep).2.queries = s.queries ++ [q] := by
  unfold getNatInfo
  split
  · exact .inl rfl
  · split
    · exact .inl rfl
    · cases rep.servers with
      | nil => exact .inl rfl
      | cons server servers =>
        right
        simp only [natLoop, h]
        split
        · exact ⟨_, _, rfl, rfl⟩
        · rw [natLoop_of_some rfl]
          exact ⟨_, _, rfl, rfl⟩

/-! ## The daemon's life -/

/-- **After the first answer nothing changes.** From a state whose
`hostNatInfo` is set, every later call returns `false` and leaves the state,
the NAT type included, as it is. -/
theorem natRun_of_some {i : HostInfo} (h : s.hostNatInfo = some i) :
    ∀ reps, natRun s reps = (reps.map fun _ => false, s)
  | [] => rfl
  | rep :: reps => by
    simp only [natRun, getNatInfo_of_some h, natRun_of_some h reps, List.map_cons]

theorem natRun_of_none (h : s.hostNatInfo = none) :
    ∀ reps, (natRun s reps).2.queries.length ≤ s.queries.length + 1 ∧
      (natRun s reps).1.count true ≤ 1
  | [] => by simp [natRun]
  | rep :: reps => by
    rcases getNatInfo_of_none h rep with he | ⟨i, q, hi, hq⟩
    · simp only [natRun, he, List.count_cons_of_ne Bool.false_ne_true]
      exact natRun_of_none h reps
    · have hf : (reps.map fun _ => false).count true = 0 := by simp [List.count_replicate]
      simp only [natRun, natRun_of_some hi, hq, List.length_append, List.length_singleton,
        List.count_cons, hf]
      exact ⟨le_rfl, by split <;> simp⟩

/-- **STUN is asked at most once in the daemon's life.** For every run of
the daemon, its start and any number of resets, whatever the disk, the
server map, the free port and STUN answer, at most one STUN query is made
and at most one call of `getNatInfo` returns `true`; and once the answer is
in, every later call returns `false` and changes nothing. -/
theorem natRun_stun_at_most_once (natType : String) (listenPort : Nat) (endpointIP : String)
    (reps : List NatReplies) :
    (natRun (NatState.init natType listenPort endpointIP) reps).2.queries.length ≤ 1 ∧
      (natRun (NatState.init natType listenPort endpointIP) reps).1.count true ≤ 1 ∧
      ∀ i, (natRun (NatState.init natType listenPort endpointIP) reps).2.hostNatInfo = some i →
        ∀ reps', natRun (natRun (NatState.init natType listenPort endpointIP) reps).2 reps' =
          (reps'.map fun _ => false, (natRun (NatState.init natType listenPort endpointIP) reps).2) :=
  ⟨(natRun_of_none rfl reps).1, (natRun_of_none rfl reps).2, fun _ hi => natRun_of_some hi⟩

end Functions

end Netclient
