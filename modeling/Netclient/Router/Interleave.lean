import Netclient.Router.Ops
/-!
# Router — the operations' steps, interleaved

Every operation takes `n.mux` three times: in `FetchRuleTable`, for its
body, and in its deferred `SaveRules` (`DeleteRuleTable` for
`CleanRoutingRules`); other goroutines' steps run in between. A Go map is a
reference. The table `FetchRuleTable` returns is the one in
`n.ingRules[server]`, which the body changes in place, or, when the server
has none, a fresh map that only the later `SaveRules` installs; for a name
that is neither table it is `nil`.

`Shared` keeps the manager's two maps as references into a heap, and
`Shared.view` reads the `Mgr` of `Netclient.Router.Ops` off it.
`interleave` runs the goroutines' steps in the order a schedule picks.

Two operations that both find their server's table absent each fill a map
of their own, and the later `SaveRules` drops the other's entries
(`interleaved_inserts_lose_entry`). When every operation's table is
installed and none cleans, every schedule is the operations run one after
another in the order their bodies took the lock (`interleaving_serializes`).
-/

namespace Netclient

namespace Router

/-- A call's three steps: the table it fetches, its locked body, and whether
its deferred step is `DeleteRuleTable` rather than `SaveRules`. -/
structure Steps where
  server : String
  tableName : String
  body : RuleTable → World → Outcome × RuleTable × World
  cleans : Bool

variable (E : Env)

/-- The steps of a call; `none` for an `AddEgressRoutingRule` of a peer that
is not allowed, which returns before `FetchRuleTable`. -/
def Call.steps : Call → Option Steps
  | .insertEgress server ei => some ⟨server, E.egressTable, insertEgressBody E ei, false⟩
  | .addEgress server ei peer =>
    if !peer.allow then none else some ⟨server, E.egressTable, addEgressBody E ei peer, false⟩
  | .insertIngress server ext rs =>
    some ⟨server, E.ingressTable, insertIngressBody E ext rs, false⟩
  | .addIngress server key addr peer =>
    some ⟨server, E.ingressTable, addIngressBody E key addr peer, false⟩
  | .refresh server upd => some ⟨server, E.ingressTable, refreshBody E server upd, false⟩
  | .remove server name key => some ⟨server, name, removeBody E key, false⟩
  | .delete server name src dst => some ⟨server, name, deleteBody E src dst, false⟩
  | .clean server name => some ⟨server, name, cleanBody E, true⟩

/-- The three steps back to back on a manager. -/
def Mgr.runSteps (m : Mgr) (rep : Replies) (st : Steps) : Outcome × Mgr :=
  let b := st.body (m.fetchRuleTable E st.server st.tableName) (m.world rep)
  (b.1, if st.cleans then (m.withWorld b.2.2).deleteRuleTable E st.server st.tableName
    else (m.withWorld b.2.2).saveRules E st.server st.tableName b.2.1)

/-- Every call is its steps back to back. -/
theorem Mgr.call_eq_runSteps (m : Mgr) (rep : Replies) (c : Call) :
    m.call E rep c = match c.steps E with
      | none => (.ok, m)
      | some st => m.runSteps E rep st := by
  cases c with
  | addEgress server ei peer =>
    simp only [Mgr.call, Mgr.addEgressRoutingRule, Call.steps]
    cases peer.allow <;> rfl
  | _ => rfl

/-- The manager with its two maps holding references into a heap of tables;
`next` is the first reference not yet handed out. -/
structure Shared where
  ingRules : GoMap String Nat
  engressRules : GoMap String Nat
  heap : Nat → RuleTable
  next : Nat
  currEgressRanges : GoMap String (List CidrText)
  jumpRules : List RuleInfo
  rules : List NfRule

namespace Shared

/-- A manager after `init()`, over a kernel ruleset. -/
def init (rules : List NfRule) : Shared :=
  ⟨GoMap.empty, GoMap.empty, fun _ => GoMap.empty, 0, GoMap.empty,
    nfFilterJumpRules E ++ nfNatJumpRules E, rules⟩

/-- The manager a state stands for: each entry read through the heap. -/
def view (s : Shared) : Mgr :=
  ⟨s.ingRules.map s.heap, s.engressRules.map s.heap, s.currEgressRanges, s.jumpRules, s.rules⟩

/-- The reference installed for a server under a table name. -/
def tableRef (s : Shared) (server tableName : String) : Option Nat :=
  if tableName = E.ingressTable then s.ingRules.get? server
  else if tableName = E.egressTable then s.engressRules.get? server
  else none

/-- `FetchRuleTable`: the installed table, a fresh empty one when the server
has none, and `nil` (`none`) for a name that is neither table. -/
def fetchRuleTable (s : Shared) (server tableName : String) : Option Nat × Shared :=
  match s.tableRef E server tableName with
  | some r => (some r, s)
  | none =>
    if tableName = E.ingressTable ∨ tableName = E.egressTable then
      (some s.next,
        { s with heap := fun i => if i = s.next then GoMap.empty else s.heap i, next := s.next + 1 })
    else (none, s)

/-- A body's in-place changes to the table behind a reference; a `nil`
table has none. -/
def write (s : Shared) : Option Nat → RuleTable → Shared
  | some r, t => { s with heap := fun i => if i = r then t else s.heap i }
  | none, _ => s

/-- The world a body sees, with the kernel's replies. -/
def world (s : Shared) (rep : Replies) : World :=
  ⟨s.rules, rep.ins, rep.del, s.currEgressRanges, s.jumpRules⟩

/-- The state after a body left the world `w`. -/
def withWorld (s : Shared) (w : World) : Shared :=
  { s with rules := w.rules, currEgressRanges := w.currEgressRanges, jumpRules := w.jumpRules }

/-- `SaveRules`: install a reference under the server. -/
def saveRules (s : Shared) (server tableName : String) (r : Nat) : Shared :=
  if tableName = E.ingressTable then { s with ingRules := s.ingRules.insert server r }
  else if tableName = E.egressTable then { s with engressRules := s.engressRules.insert server r }
  else s

/-- `DeleteRuleTable`. -/
def deleteRuleTable (s : Shared) (server tableName : String) : Shared :=
  if tableName = E.ingressTable then { s with ingRules := s.ingRules.erase server }
  else if tableName = E.egressTable then { s with engressRules := s.engressRules.erase server }
  else s

end Shared

/-- Where a goroutine is: before `FetchRuleTable`, holding the table it
fetched before its body or before its deferred step, or returned. -/
inductive Pc
  | fetch
  | body (r : Option Nat)
  | save (r : Option Nat)
  | done
  deriving DecidableEq, Repr

/-- A goroutine running one call, with the kernel's replies to its `Flush`es. -/
structure Thread where
  call : Call
  rep : Replies
  pc : Pc

/-- The call and replies a goroutine runs. -/
def Thread.job (th : Thread) : Call × Replies := (th.call, th.rep)

/-- One step of a goroutine, atomic under `n.mux`; `none` when its body
panics and takes the daemon down. A `nil` table is saved under no name. -/
def Thread.step (s : Shared) (th : Thread) : Option (Shared × Pc) :=
  match th.call.steps E, th.pc with
  | none, .fetch => some (s, .done)
  | some st, .fetch =>
    let f := s.fetchRuleTable E st.server st.tableName
    some (f.2, .body f.1)
  | some st, .body r =>
    let b := st.body ((r.map s.heap).getD GoMap.empty) (s.world th.rep)
    if b.1 = .panic then none else some ((s.withWorld b.2.2).write r b.2.1, .save r)
  | some st, .save r =>
    some (if st.cleans then s.deleteRuleTable E st.server st.tableName
      else r.elim s (s.saveRules E st.server st.tableName), .done)
  | _, pc => some (s, pc)

/-- The goroutines run in the order a schedule of their indices picks; an
index past the end, or of a returned goroutine, changes nothing. `none`
once a body panics. -/
def interleave (s : Shared) (ts : List Thread) : List Nat → Option (Shared × List Thread)
  | [] => some (s, ts)
  | i :: is =>
    match ts[i]? with
    | none => interleave s ts is
    | some th =>
      match th.step E s with
      | none => none
      | some (s', pc) => interleave s' (ts.set i { th with pc := pc }) is

theorem Mgr.saveRules_of_unknown (m : Mgr) {server name : String} (t : RuleTable)
    (hi : name ≠ E.ingressTable) (he : name ≠ E.egressTable) : m.saveRules E server name t = m := by
  simp [Mgr.saveRules, hi, he]

theorem Mgr.run_append (m : Mgr) (l l' : List (Call × Replies)) :
    m.run E (l ++ l') = (m.run E l).bind (·.run E l') := by
  induction l generalizing m with
  | nil => rfl
  | cons j l ih =>
    obtain ⟨c, rep⟩ := j
    simp only [List.cons_append, Mgr.run]
    split <;> simp [ih]

theorem Mgr.run_cons_of_ne_panic {m : Mgr} {rep : Replies} {c : Call}
    (h : (m.call E rep c).1 ≠ .panic) (cs : List (Call × Replies)) :
    m.run E ((c, rep) :: cs) = (m.call E rep c).2.run E cs := by
  rcases hc : m.call E rep c with ⟨o, m'⟩
  rw [hc] at h
  cases o <;> simp_all [Mgr.run]

/-! ## Two inserts that find the table absent -/

/-- Whether a manager's table under a name records an entry for a key. -/
def Mgr.records (m : Mgr) (tableName server key : String) : Bool :=
  ((m.fetchRuleTable E server tableName).get? key).isSome

theorem perm_pair {α : Type} {l : List α} {a b : α} (h : l.Perm [a, b]) :
    l = [a, b] ∨ l = [b, a] := by
  obtain ⟨x, y, rfl⟩ : ∃ x y, l = [x, y] := by
    match l, h.length_eq with
    | [x, y], _ => exact ⟨x, y, rfl⟩
  have ha := h.symm.subset (List.mem_cons_self a [b])
  have hb := h.symm.subset (List.mem_cons_of_mem a (List.mem_singleton_self b))
  have hx := h.subset (List.mem_cons_self x [y])
  have hy := h.subset (List.mem_cons_of_mem x (List.mem_singleton_self y))
  simp only [List.mem_cons, List.mem_singleton, List.not_mem_nil, or_false] at ha hb hx hy
  rcases ha with rfl | rfl <;> rcases hb with rfl | rfl <;> simp_all

/-- Two goroutines inserting ext clients `a` and `b` for server `s`. -/
def twoInserts : List Thread :=
  [⟨.insertIngress "s" (extAt "a" 2) [], .allOk, .fetch⟩,
    ⟨.insertIngress "s" (extAt "b" 3) [], .allOk, .fetch⟩]

/-- Both fetch, both bodies run, both save. -/
def alternating : List Nat := [0, 1, 0, 1, 0, 1]

/-- **A table fetched absent loses entries.** On a fresh manager, two
`InsertIngressRoutingRules` for one server that both fetch before either
saves fill a fresh map each, and the later `SaveRules` replaces the other:
the result records no entry for `a`, which either order of the two calls
records. So even "the same entries are recorded" fails. -/
theorem interleaved_inserts_lose_entry :
    ¬ ∀ (E : Env) (s : Shared) (ts : List Thread) (sched : List Nat) (s' : Shared)
        (ts' : List Thread),
      interleave E s ts sched = some (s', ts') → (∀ th ∈ ts', th.pc = .done) →
      ∃ order, order.Perm (ts.map Thread.job) ∧ ∃ m, s.view.run E order = some m ∧
        ∀ name server key, m.records E name server key = s'.view.records E name server key := by
  intro h
  obtain ⟨order, hperm, m, hrun, hrec⟩ :=
    h Env.sample (Shared.init Env.sample []) twoInserts alternating _ _ rfl (by decide)
  have ha := hrec Env.sample.ingressTable "s" "a"
  rcases perm_pair hperm with rfl | rfl <;>
  · rw [Mgr.run_cons_of_ne_panic _ (by decide), Mgr.run_cons_of_ne_panic _ (by decide)] at hrun
    cases hrun
    exact absurd ha (by decide)

/-! ## Installed tables serialize -/

/-- Whether a goroutine's body has run. -/
def Pc.ran : Pc → Bool
  | .save _ | .done => true
  | _ => false

/-- The goroutines whose bodies run under the schedule, in the order they
run: the index of each step that takes a goroutine past its body. -/
def bodiesRun (s : Shared) (ts : List Thread) : List Nat → List Nat
  | [] => []
  | i :: is =>
    match ts[i]? with
    | none => bodiesRun s ts is
    | some th =>
      match th.step E s with
      | none => []
      | some (s', pc) =>
        (if !th.pc.ran && pc.ran then [i] else []) ++ bodiesRun s' (ts.set i { th with pc := pc }) is

namespace Shared

/-- The references the two maps hold. -/
def refs (s : Shared) : List Nat := s.ingRules.values ++ s.engressRules.values

/-- Whether a call finds its table installed, or gets `nil`, and is not
`CleanRoutingRules`: it makes no fresh map and deletes no table. -/
def settled (s : Shared) (c : Call) : Bool :=
  match c.steps E with
  | none => true
  | some st => !st.cleans && ((s.tableRef E st.server st.tableName).isSome ||
      st.tableName != E.ingressTable && st.tableName != E.egressTable)

theorem view_fetchRuleTable (s : Shared) (server name : String) :
    s.view.fetchRuleTable E server name =
      ((s.tableRef E server name).map s.heap).getD GoMap.empty := by
  unfold Mgr.fetchRuleTable tableRef view
  split_ifs <;> simp

/-- With no reference shared, a body's write through the reference its
table is installed under is `SaveRules` of the changed table. -/
theorem view_write (s : Shared) {server name : String} {r : Nat} (t : RuleTable)
    (hnd : s.refs.Nodup) (hr : s.tableRef E server name = some r) :
    (s.write (some r) t).view = s.view.saveRules E server name t := by
  obtain ⟨hing, heg, hdis⟩ := List.nodup_append.1 hnd
  unfold tableRef at hr
  unfold Mgr.saveRules
  split_ifs at hr ⊢
  · have hne : ∀ v ∈ s.engressRules.values, (if v = r then t else s.heap v) = s.heap v :=
      fun v hv => if_neg fun (e : v = r) => hdis (s.ingRules.mem_values_of_get? hr) (e ▸ hv)
    simp only [view, write, GoMap.map_update s.heap s.ingRules t hr hing, GoMap.map_congr _ hne]
  · have hne : ∀ v ∈ s.ingRules.values, (if v = r then t else s.heap v) = s.heap v :=
      fun v hv => if_neg fun (e : v = r) => hdis (e ▸ hv) (s.engressRules.mem_values_of_get? hr)
    simp only [view, write, GoMap.map_update s.heap s.engressRules t hr heg, GoMap.map_congr _ hne]

theorem saveRules_of_tableRef (s : Shared) {server name : String} {r : Nat}
    (hr : s.tableRef E server name = some r) : s.saveRules E server name r = s := by
  unfold tableRef at hr
  unfold saveRules
  split_ifs at hr ⊢
  · rw [GoMap.insert_of_get? hr]
  · rw [GoMap.insert_of_get? hr]

@[simp] theorem view_world (s : Shared) (rep : Replies) : s.view.world rep = s.world rep := rfl

theorem settled_steps {s : Shared} {c : Call} {st : Steps} (h : s.settled E c = true)
    (hst : c.steps E = some st) :
    st.cleans = false ∧ ((s.tableRef E st.server st.tableName).isSome = true ∨
      st.tableName ≠ E.ingressTable ∧ st.tableName ≠ E.egressTable) := by
  simpa [settled, hst] using h

theorem fetchRuleTable_of_settled (s : Shared) {server name : String}
    (h : (s.tableRef E server name).isSome = true ∨
      name ≠ E.ingressTable ∧ name ≠ E.egressTable) :
    s.fetchRuleTable E server name = (s.tableRef E server name, s) := by
  unfold fetchRuleTable
  rcases hr : s.tableRef E server name with _ | r
  · rw [hr] at h
    simp only [Option.isSome_none, Bool.false_eq_true, false_or] at h
    simp only [if_neg (not_or.2 h)]
  · rfl

end Shared

theorem getElem?_set_of_getElem? {α : Type} {l : List α} {i j : Nat} {a b : α}
    (h : l[i]? = some a) : (l.set i b)[j]? = if j = i then some b else l[j]? := by
  have hi : i < l.length := (List.getElem?_eq_some_iff.1 h).1
  rw [List.getElem?_set]
  by_cases hj : j = i
  · subst hj
    simp [hi]
  · simp [hj, Ne.symm hj]

theorem set_of_getElem? {α : Type} {l : List α} {i : Nat} {a : α} (h : l[i]? = some a) :
    l.set i a = l :=
  List.ext_getElem? fun j => by
    rw [getElem?_set_of_getElem? h]
    split_ifs with hj
    · rw [hj, h]
    · rfl

theorem filterMap_range_getElem? {α : Type} :
    ∀ l : List α, (List.range l.length).filterMap (l[·]?) = l
  | [] => rfl
  | a :: l => by
    rw [List.length_cons, List.range_succ_eq_map, List.filterMap_cons, List.filterMap_map]
    simp [Function.comp_def, filterMap_range_getElem? l]

/-- What holds along a schedule of settled calls from `s₀`: the maps are
those of `s₀`; a goroutine between its fetch and its deferred step holds the
reference its table is installed under; and the state is the calls whose
bodies ran, run one after another in the order they ran (`done`). -/
structure Serial (s₀ : Shared) (jobs : List (Call × Replies)) (s : Shared) (ts : List Thread)
    (done : List Nat) : Prop where
  jobs_eq : ts.map Thread.job = jobs
  ingRules : s.ingRules = s₀.ingRules
  engressRules : s.engressRules = s₀.engressRules
  held : ∀ (i : Nat) (th : Thread) (r : Option Nat), ts[i]? = some th →
    th.pc = .body r ∨ th.pc = .save r →
    ∃ st : Steps, th.call.steps E = some st ∧ r = s₀.tableRef E st.server st.tableName
  nodup : done.Nodup
  mem_done : ∀ i : Nat, i ∈ done ↔ ∃ th : Thread, ts[i]? = some th ∧ th.pc.ran = true
  run : s₀.view.run E (done.filterMap (jobs[·]?)) = some s.view

variable {E}

namespace Serial

variable {s₀ s s' : Shared} {jobs : List (Call × Replies)} {ts : List Thread} {done : List Nat}
  {i : Nat} {th : Thread} {pc : Pc}

theorem tableRef_eq (hs : Serial E s₀ jobs s ts done) : s.tableRef E = s₀.tableRef E := by
  funext server name
  simp only [Shared.tableRef, hs.ingRules, hs.engressRules]

theorem refs_eq (hs : Serial E s₀ jobs s ts done) : s.refs = s₀.refs := by
  simp only [Shared.refs, hs.ingRules, hs.engressRules]

theorem settled_eq (hs : Serial E s₀ jobs s ts done) : s.settled E = s₀.settled E := by
  funext c
  simp only [Shared.settled, hs.tableRef_eq]

theorem jobs_set (hs : Serial E s₀ jobs s ts done) (hth : ts[i]? = some th) :
    (ts.set i { th with pc := pc }).map Thread.job = jobs := by
  rw [List.map_set, ← hs.jobs_eq]
  exact set_of_getElem? (by rw [List.getElem?_map, hth]; rfl)

/-- A step that moves no goroutine past its body and leaves the manager a
state stands for as it was. -/
theorem set_same (hs : Serial E s₀ jobs s ts done) (hth : ts[i]? = some th)
    (hing : s'.ingRules = s.ingRules) (heg : s'.engressRules = s.engressRules)
    (hview : s'.view = s.view) (hran : pc.ran = th.pc.ran)
    (hheld : ∀ r, pc = .body r ∨ pc = .save r →
      ∃ st, th.call.steps E = some st ∧ r = s₀.tableRef E st.server st.tableName) :
    Serial E s₀ jobs s' (ts.set i { th with pc := pc }) done where
  jobs_eq := hs.jobs_set hth
  ingRules := hing.trans hs.ingRules
  engressRules := heg.trans hs.engressRules
  held j th' r hj hpc := by
    rw [getElem?_set_of_getElem? hth] at hj
    split_ifs at hj
    · cases hj
      exact hheld r hpc
    · exact hs.held j th' r hj hpc
  nodup := hs.nodup
  mem_done j := by
    rw [hs.mem_done, getElem?_set_of_getElem? hth]
    split_ifs with hj
    · subst hj
      simp [hth, hran]
    · rfl
  run := hview ▸ hs.run

/-- A step that runs a goroutine's body: the state is the sequential run
one call further. -/
theorem set_append (hs : Serial E s₀ jobs s ts done) (hth : ts[i]? = some th)
    (hing : s'.ingRules = s.ingRules) (heg : s'.engressRules = s.engressRules)
    (hrun : s.view.run E [th.job] = some s'.view) (hran₀ : th.pc.ran = false)
    (hran : pc.ran = true)
    (hheld : ∀ r, pc = .body r ∨ pc = .save r →
      ∃ st, th.call.steps E = some st ∧ r = s₀.tableRef E st.server st.tableName) :
    Serial E s₀ jobs s' (ts.set i { th with pc := pc }) (done ++ [i]) where
  jobs_eq := hs.jobs_set hth
  ingRules := hing.trans hs.ingRules
  engressRules := heg.trans hs.engressRules
  held j th' r hj hpc := by
    rw [getElem?_set_of_getElem? hth] at hj
    split_ifs at hj
    · cases hj
      exact hheld r hpc
    · exact hs.held j th' r hj hpc
  nodup := by
    refine List.nodup_append.2 ⟨hs.nodup, List.nodup_singleton i, fun j hj hji => ?_⟩
    rw [List.mem_singleton.1 hji, hs.mem_done, hth] at hj
    simp [hran₀] at hj
  mem_done j := by
    rw [List.mem_append, List.mem_singleton, hs.mem_done, getElem?_set_of_getElem? hth]
    split_ifs with hj
    · subst hj
      simp [hth, hran, hran₀]
    · simp [hj]
  run := by
    have hi : jobs[i]? = some th.job := by rw [← hs.jobs_eq, List.getElem?_map, hth]; rfl
    rw [List.filterMap_append, Mgr.run_append, hs.run]
    simpa [hi] using hrun

/-- A settled call's body, run through the reference its table is installed
under, is the call run on the manager the state stands for. -/
theorem body (hs : Serial E s₀ jobs s ts done) (hnd : s₀.refs.Nodup) (hth : ts[i]? = some th)
    {st : Steps} {r : Option Nat} {o : Outcome} {t : RuleTable} {w : World}
    (hst : th.call.steps E = some st) (hpc : th.pc = .body r)
    (hset : s.settled E th.call = true)
    (hb : st.body ((r.map s.heap).getD GoMap.empty) (s.world th.rep) = (o, t, w))
    (ho : o ≠ .panic) :
    Serial E s₀ jobs ((s.withWorld w).write r t) (ts.set i { th with pc := .save r }) (done ++ [i]) := by
  obtain ⟨st', hst', hr⟩ := hs.held i th r hth (.inl hpc)
  rw [hst, Option.some.injEq] at hst'
  subst hst'
  rw [← hs.tableRef_eq] at hr
  obtain ⟨hcl, hknown⟩ := Shared.settled_steps E hset hst
  have hview : (s.view.withWorld w).saveRules E st.server st.tableName t =
      ((s.withWorld w).write r t).view := by
    rcases r with _ | r
    · rw [← hr, Option.isSome_none, Bool.false_eq_true, false_or] at hknown
      exact Mgr.saveRules_of_unknown E _ t hknown.1 hknown.2
    · exact (Shared.view_write E (s.withWorld w) t (hs.refs_eq ▸ hnd) hr.symm).symm
  have hcall : s.view.call E th.rep th.call = (o, ((s.withWorld w).write r t).view) := by
    rw [Mgr.call_eq_runSteps, hst]
    simp only [Mgr.runSteps, Shared.view_fetchRuleTable, Shared.view_world, ← hr, hb, hcl,
      Bool.false_eq_true, if_false, hview]
  have hmaps : ((s.withWorld w).write r t).ingRules = s.ingRules ∧
      ((s.withWorld w).write r t).engressRules = s.engressRules := by
    cases r <;> exact ⟨rfl, rfl⟩
  refine hs.set_append hth hmaps.1 hmaps.2 ?_ (by rw [hpc]; rfl) rfl ?_
  · rw [Thread.job, Mgr.run_cons_of_ne_panic E (by rw [hcall]; exact ho), hcall]
    rfl
  · rintro r' (h | h) <;> cases h
    exact ⟨st, hst, hr.trans (congrFun (congrFun hs.tableRef_eq _) _)⟩

/-- **The step lemma.** Every step of a goroutine running a settled call
keeps `Serial`, the goroutine joining the calls run when the step takes it
past its body. -/
theorem step (hs : Serial E s₀ jobs s ts done) (hnd : s₀.refs.Nodup)
    (hset : ∀ j ∈ jobs, s₀.settled E j.1 = true) (hth : ts[i]? = some th)
    (hstep : th.step E s = some (s', pc)) :
    Serial E s₀ jobs s' (ts.set i { th with pc := pc })
      (done ++ if !th.pc.ran && pc.ran then [i] else []) := by
  have hsettled : s.settled E th.call = true := by
    rw [hs.settled_eq]
    exact hset th.job (hs.jobs_eq ▸ List.mem_map_of_mem _ (List.getElem?_mem hth))
  have hstay : s = s' → th.pc = pc → Serial E s₀ jobs s' (ts.set i { th with pc := pc })
      (done ++ if !th.pc.ran && pc.ran then [i] else []) := by
    rintro rfl rfl
    simpa [set_of_getElem? hth] using hs
  rcases hst : th.call.steps E with _ | st <;> rcases hpc : th.pc with _ | r | r | _ <;>
    simp only [Thread.step, hst, hpc, Option.some.injEq, Prod.mk.injEq] at hstep
  · obtain ⟨rfl, rfl⟩ := hstep
    have hcall : s.view.call E th.rep th.call = (.ok, s.view) := by
      rw [Mgr.call_eq_runSteps, hst]
    refine hs.set_append hth rfl rfl ?_ (by rw [hpc]; rfl) rfl (by simp)
    rw [Thread.job, Mgr.run_cons_of_ne_panic E (by simp [hcall]), hcall]
    rfl
  · simpa only [hpc] using hstay hstep.1 (hpc.trans hstep.2)
  · simpa only [hpc] using hstay hstep.1 (hpc.trans hstep.2)
  · simpa only [hpc] using hstay hstep.1 (hpc.trans hstep.2)
  · rw [Shared.fetchRuleTable_of_settled E s (Shared.settled_steps E hsettled hst).2] at hstep
    obtain ⟨rfl, rfl⟩ := hstep
    show Serial E s₀ jobs _ _ (done ++ [])
    refine (List.append_nil done).symm ▸ hs.set_same hth rfl rfl rfl (by rw [hpc]; rfl) ?_
    rintro r (h | h) <;> cases h
    exact ⟨st, hst, congrFun (congrFun hs.tableRef_eq _) _⟩
  · rcases hb : st.body ((r.map s.heap).getD GoMap.empty) (s.world th.rep) with ⟨o, t, w⟩
    rw [hb] at hstep
    by_cases ho : o = .panic
    · simp [ho] at hstep
    · rw [if_neg ho, Option.some.injEq, Prod.mk.injEq] at hstep
      obtain ⟨rfl, rfl⟩ := hstep
      exact hs.body hnd hth hst hpc hsettled hb ho
  · obtain ⟨st', hst', hr⟩ := hs.held i th r hth (.inr hpc)
    rw [hst, Option.some.injEq] at hst'
    subst hst'
    rw [← hs.tableRef_eq] at hr
    have hsave : r.elim s (s.saveRules E st.server st.tableName) = s := by
      rcases r with _ | r
      · rfl
      · exact Shared.saveRules_of_tableRef E s hr.symm
    rw [(Shared.settled_steps E hsettled hst).1, if_neg Bool.false_ne_true, hsave] at hstep
    obtain ⟨rfl, rfl⟩ := hstep
    show Serial E s₀ jobs _ _ (done ++ [])
    exact (List.append_nil done).symm ▸ hs.set_same hth rfl rfl rfl (by rw [hpc]; rfl) (by simp)
  · simpa only [hpc] using hstay hstep.1 (hpc.trans hstep.2)

/-- **The run lemma.** `Serial` holds after every schedule, with the calls
run in the order their bodies ran. -/
theorem run_interleave (hnd : s₀.refs.Nodup) (hset : ∀ j ∈ jobs, s₀.settled E j.1 = true) :
    ∀ (sched : List Nat) {s s' : Shared} {ts ts' : List Thread} {done : List Nat},
      Serial E s₀ jobs s ts done → interleave E s ts sched = some (s', ts') →
      Serial E s₀ jobs s' ts' (done ++ bodiesRun E s ts sched)
  | [], _, _, _, _, _, hs, h => by
    simp only [interleave, Option.some.injEq, Prod.mk.injEq] at h
    obtain ⟨rfl, rfl⟩ := h
    simpa [bodiesRun] using hs
  | i :: is, s, _, ts, _, _, hs, h => by
    rcases hth : ts[i]? with _ | th
    · simp only [interleave, hth] at h
      simpa only [bodiesRun, hth] using run_interleave hnd hset is hs h
    · rcases hstep : th.step E s with _ | ⟨s₁, pc⟩
      · simp [interleave, hth, hstep] at h
      · simp only [interleave, hth, hstep] at h
        simpa only [bodiesRun, hth, hstep, List.append_assoc] using
          run_interleave hnd hset is (hs.step hnd hset hth hstep) h

end Serial

/-- **Settled calls serialize.** Goroutines that start before their fetch,
from a state where no two entries share a table, each running a call whose
table is installed (or `nil`) and none of them `CleanRoutingRules`, end,
under every schedule that runs them to the end, in the manager (both rule
tables, the kernel ruleset, `currEgressRangesMap` and `nfJumpRules`) that the
same calls give run one after another in the order in which their bodies
ran (`bodiesRun`). -/
theorem interleaving_serializes (E : Env) (s : Shared) (ts : List Thread) (sched : List Nat) (s' : Shared)
    (ts' : List Thread) (hrefs : s.refs.Nodup) (hstart : ∀ th ∈ ts, th.pc = .fetch)
    (hsettled : ∀ th ∈ ts, s.settled E th.call = true)
    (hrun : interleave E s ts sched = some (s', ts')) (hdone : ∀ th ∈ ts', th.pc = .done) :
    ((bodiesRun E s ts sched).filterMap ((ts.map Thread.job)[·]?)).Perm (ts.map Thread.job) ∧
      s.view.run E ((bodiesRun E s ts sched).filterMap ((ts.map Thread.job)[·]?)) = some s'.view := by
  have h₀ : Serial E s (ts.map Thread.job) s ts [] :=
    { jobs_eq := rfl
      ingRules := rfl
      engressRules := rfl
      held := fun i th r hth hpc => by
        rw [hstart th (List.getElem?_mem hth)] at hpc
        simp at hpc
      nodup := List.nodup_nil
      mem_done := fun i => by
        simp only [List.not_mem_nil, false_iff, not_exists, not_and]
        intro th hth
        rw [hstart th (List.getElem?_mem hth)]
        decide
      run := rfl }
  have hset : ∀ j ∈ ts.map Thread.job, s.settled E j.1 = true := fun j hj => by
    obtain ⟨th, hth, rfl⟩ := List.mem_map.1 hj
    exact hsettled th hth
  have hs := Serial.run_interleave hrefs hset sched h₀ hrun
  rw [List.nil_append] at hs
  have hlen : ts'.length = ts.length := by simpa using congrArg List.length hs.jobs_eq
  have hperm : (bodiesRun E s ts sched).Perm (List.range (ts.map Thread.job).length) := by
    rw [List.perm_ext_iff_of_nodup hs.nodup (List.nodup_range _)]
    intro i
    rw [hs.mem_done, List.mem_range, List.length_map, ← hlen]
    constructor
    · rintro ⟨th, hth, -⟩
      exact (List.getElem?_eq_some_iff.1 hth).1
    · intro hi
      exact ⟨ts'[i], List.getElem?_eq_getElem hi, by rw [hdone _ (List.getElem_mem hi)]; rfl⟩
  refine ⟨?_, hs.run⟩
  simpa only [filterMap_range_getElem?] using hperm.filterMap ((ts.map Thread.job)[·]?)

/-- Server `s` with an empty ingress table installed. -/
def installed : Shared :=
  { Shared.init Env.sample [] with ingRules := GoMap.empty.insert "s" 0, next := 1 }

theorem installed_inserts_serialize :
    ∃ s' ts', interleave Env.sample installed twoInserts alternating = some (s', ts') ∧
      (∀ th ∈ ts', th.pc = .done) ∧
      bodiesRun Env.sample installed twoInserts alternating = [0, 1] ∧
      ((bodiesRun Env.sample installed twoInserts alternating).filterMap
          ((twoInserts.map Thread.job)[·]?)).Perm (twoInserts.map Thread.job) ∧
        installed.view.run Env.sample ((bodiesRun Env.sample installed twoInserts alternating).filterMap
          ((twoInserts.map Thread.job)[·]?)) = some s'.view :=
  ⟨_, _, rfl, by decide, by decide,
    interleaving_serializes Env.sample installed twoInserts alternating _ _ (by decide) (by decide)
      (by decide) rfl (by decide)⟩

end Router

end Netclient
