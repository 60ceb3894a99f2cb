import Netclient.Proxy.Reset
/-!
# Proxy — the old loop after `Reset`

`Reset` closes the old endpoint and starts the new one without waiting for
the old loop to exit, and the loop looks at its context only before `Read`.
A loop that holds a datagram when `Close` runs still writes it, and the new
loop may read and write first (`reset_two_loops_pending`). What `Close` does
give is a budget: from then on the old loop makes at most the one write it
holds, and no further read (`closed_loop_writes_at_most_once`).
-/

namespace Netclient

namespace Proxy

/-- The write a loop holds: one when it has read a datagram and not sent it yet. -/
def Endpoint.pending (e : Endpoint) : Nat :=
  match e.loop with
  | some (.sending _ _) => 1
  | _ => 0

/-- `Close` has run on the endpoint: its context is cancelled and its socket closed. -/
def Endpoint.closed (e : Endpoint) : Bool := e.cancelled && e.connClosed

/-- The writes endpoint `q`'s loop has made. -/
def Sys.writes (s : Sys) (q : Nat) : Nat := s.sent.countP (·.1 == q)

variable {pp : PreSend}

/-! ## What the other events do to a closed endpoint -/

/-- Everything but its own loop leaves an existing endpoint's loop alone, keeps
it closed once closed, and writes nothing. -/
structure Untouched (q : Nat) (s s' : Sys) : Prop where
  lt_next : q < s'.next
  loop_eq : (s'.eps q).loop = (s.eps q).loop
  closed : (s.eps q).closed = true → (s'.eps q).closed = true
  sent_eq : s'.sent = s.sent

theorem untouched_setEp {q p : Nat} {s : Sys} {e : Endpoint} (hq : q < s.next)
    (hloop : e.loop = (s.eps p).loop) (hc : (s.eps p).closed = true → e.closed = true) :
    Untouched q s (s.setEp p e) := by
  by_cases hqp : q = p
  · subst hqp
    exact ⟨hq, by simp [Sys.setEp, hloop], by simpa [Sys.setEp] using hc, rfl⟩
  · exact ⟨hq, by simp [Sys.setEp, Function.update_apply, hqp],
      by simp [Sys.setEp, Function.update_apply, hqp], rfl⟩

theorem untouched_goto {q t : Nat} {pc : ResetPc} {s s' : Sys} (h : Untouched q s s') :
    Untouched q s (s'.goto t pc) := ⟨h.lt_next, h.loop_eq, h.closed, h.sent_eq⟩

theorem untouched_refl {q : Nat} {s : Sys} (hq : q < s.next) : Untouched q s s :=
  ⟨hq, rfl, id, rfl⟩

theorem close_closed (e : Endpoint) : e.close.closed = true := rfl

theorem untouched_resetStep {s s' : Sys} {q t : Nat} {ok : Bool} (hq : q < s.next)
    (h : s.resetStep t ok = some s') : Untouched q s s' := by
  unfold Sys.resetStep at h
  split at h
  rename_i p pc _
  cases pc with
  | close =>
    cases h
    exact untouched_goto (untouched_setEp hq rfl fun _ => close_closed _)
  | pull =>
    cases h
    split
    · exact untouched_goto (untouched_setEp hq rfl id)
    · exact untouched_goto (untouched_refl hq)
  | start =>
    cases h
    have hne : q ≠ s.next := by omega
    exact ⟨by simp; omega, by simp [Function.update_apply, hne],
      by simp [Function.update_apply, hne], rfl⟩
  | savePeer c => cases h; exact ⟨hq, rfl, id, rfl⟩
  | saveByHash i => cases h; exact ⟨hq, rfl, id, rfl⟩
  | done => cases h
  | _ => cases h; exact untouched_goto (untouched_refl hq)

theorem untouched_remove {s : Sys} {q : Nat} (hq : q < s.next) : Untouched q s s.remove := by
  unfold Sys.remove
  split
  · rename_i c _
    have := untouched_setEp (p := c.stopConn) (e := (s.eps c.stopConn).close) hq rfl
      fun _ => close_closed _
    exact ⟨this.lt_next, this.loop_eq, this.closed, this.sent_eq⟩
  · exact ⟨hq, rfl, id, rfl⟩

/-! ## The closed loop's own steps -/

/-- **A closed loop's step spends its budget.** Once `Close` has run, the
`select` sees the context cancelled and `Read` only fails, so the loop can
only exit, or send the datagram it holds and come back to the top. -/
theorem closed_loopStep {s s' : Sys} {q : Nat} {i : Input} (hc : (s.eps q).closed = true)
    (h : s.loopStep pp q i = some s') :
    (s'.eps q).closed = true ∧ s'.writes q + (s'.eps q).pending ≤ s.writes q + (s.eps q).pending := by
  simp only [Endpoint.closed, Bool.and_eq_true] at hc
  unfold Sys.loopStep at h
  split at h
  · cases h
  rename_i l hl
  split at h
  case isFalse => cases h
  rename_i hoff
  obtain ⟨⟨l', ws⟩, hstep, rfl⟩ := Option.map_eq_some'.1 h
  refine ⟨by simp [Sys.setEp, Endpoint.closed, hc], ?_⟩
  cases l <;> cases i <;> simp_all [Loop.step, Endpoint.offers, Sys.writes, Sys.setEp,
    Endpoint.pending, List.countP_append]
  all_goals first
    | (obtain ⟨rfl, rfl⟩ := hstep; simp)
    | (split at hstep <;> cases hstep <;> simp_all)

/-! ## The budget over a run -/

theorem Untouched.budget {q : Nat} {s s' : Sys} (h : Untouched q s s') :
    s'.writes q + (s'.eps q).pending = s.writes q + (s.eps q).pending := by
  simp only [Sys.writes, Endpoint.pending, h.sent_eq, h.loop_eq]

/-- Another loop's step leaves endpoint `q` alone and writes for its own endpoint. -/
theorem untouched_loopStep {s s' : Sys} {q r : Nat} {i : Input} (hq : q < s.next) (hqr : q ≠ r)
    (h : s.loopStep pp r i = some s') :
    q < s'.next ∧ s'.eps q = s.eps q ∧ s'.writes q = s.writes q := by
  obtain ⟨l, ws, rfl, -⟩ := loopStep_eq h
  refine ⟨hq, by simp [Sys.setEp, Function.update_apply, hqr], ?_⟩
  simp [Sys.writes, List.countP_append, List.countP_eq_zero, Ne.symm hqr]

/-- **One step of the relay, seen from a closed endpoint**: it stays closed,
and its writes plus the write it holds never grow. -/
theorem budget_step {s s' : Sys} {q : Nat} {ev : Event} (hq : q < s.next)
    (hc : (s.eps q).closed = true) (h : s.step pp ev = some s') :
    q < s'.next ∧ (s'.eps q).closed = true ∧
      s'.writes q + (s'.eps q).pending ≤ s.writes q + (s.eps q).pending := by
  cases ev with
  | reset p =>
    simp only [Sys.step] at h
    split at h <;> cases h
    exact ⟨hq, hc, le_rfl⟩
  | resetStep t ok =>
    simp only [Sys.step] at h
    split at h
    · have hu := untouched_resetStep hq h
      exact ⟨hu.lt_next, hu.closed hc, hu.budget.le⟩
    · cases h
  | remove =>
    cases h
    have hu := untouched_remove hq
    exact ⟨hu.lt_next, hu.closed hc, hu.budget.le⟩
  | loop r i =>
    by_cases hqr : q = r
    · subst hqr
      obtain ⟨l, ws, rfl, -⟩ := loopStep_eq h
      exact ⟨hq, closed_loopStep hc h⟩
    · obtain ⟨hlt, heq, hw⟩ := untouched_loopStep hq hqr h
      exact ⟨hlt, heq ▸ hc, by rw [hw, heq]⟩

/-- **After `Close`, the old loop makes at most the one write it holds.** For
every interleaving of the relay's events — `Reset` calls, the removal, and
every endpoint's loop, the new one's included — the writes endpoint `q`
makes from a state where it is closed, plus the write it still holds at the
end, are at most the write it held: one if it had read a datagram before
the close, none otherwise. In particular it never reads again. -/
theorem closed_loop_writes_at_most_once {s s' : Sys} {q : Nat} (evs : List Event)
    (hq : q < s.next) (hc : (s.eps q).closed = true) (hrun : s.run pp evs = some s') :
    s'.writes q + (s'.eps q).pending ≤ s.writes q + (s.eps q).pending := by
  induction evs generalizing s with
  | nil => cases hrun; exact le_rfl
  | cons ev evs ih =>
    obtain ⟨s₁, h₁, hrest⟩ := Option.bind_eq_some.1 hrun
    obtain ⟨hq₁, hc₁, hb₁⟩ := budget_step hq hc h₁
    exact (ih hq₁ hc₁ hrest).trans hb₁

/-- Endpoint `0`'s loop reads a datagram; a `Reset` closes the endpoint and
starts endpoint `1`, whose loop reads one too. -/
def racing : List Event :=
  [.loop 0 (.select false), .loop 0 (.read (some [5])),
    .reset 0, .resetStep 0 true, .resetStep 0 true, .resetStep 0 true, .resetStep 0 true,
    .loop 1 (.select false), .loop 1 (.read (some [6]))]

/-- After the race, the closed endpoint `0` holds its datagram: it writes it
once, then its loop exits. -/
theorem racing_closed_loop_writes_once :
    ∃ s₁ s₂, (Sys.init relayed relayed).run .keep racing = some s₁ ∧
      s₁.run .keep [.loop 0 .send, .loop 0 (.select true)] = some s₂ ∧
      (s₁.eps 0).closed = true ∧ (s₁.eps 0).pending = 1 ∧ s₂.writes 0 = s₁.writes 0 + 1 ∧
      s₂.writes 0 + (s₂.eps 0).pending ≤ s₁.writes 0 + (s₁.eps 0).pending :=
  ⟨_, _, rfl, rfl, by decide, by decide, by decide,
    closed_loop_writes_at_most_once [.loop 0 .send, .loop 0 (.select true)] (by decide) (by decide) rfl⟩

/-! ## The window `Reset` leaves open -/

/-- **Two loops of the peer can each still write.** The old loop read its
datagram before `Close`, and the new loop has read one of its own: both are
about to write, in either order. -/
theorem reset_two_loops_pending :
    ¬ ∀ (pp : PreSend) (s s' : Sys) (evs : List Event), Settled s → s.run pp evs = some s' →
      ∀ a b, a ≠ b → (s'.eps a).pending = 1 → (s'.eps b).pending = 1 → False := by
  intro h
  obtain ⟨s', hrun, hcheck⟩ : ∃ s', (Sys.init relayed relayed).run .keep racing = some s' ∧
      ((s'.eps 0).pending == 1 && (s'.eps 1).pending == 1) = true :=
    ⟨_, rfl, by decide⟩
  simp only [Bool.and_eq_true, beq_iff_eq] at hcheck
  exact h .keep _ s' racing (settled_init relayed relayed rfl rfl) hrun 0 1 (by decide) hcheck.1 hcheck.2

end Proxy

end Netclient
