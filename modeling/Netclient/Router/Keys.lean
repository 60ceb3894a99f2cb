import Netclient.Router.Ops
import Mathlib.Data.Multiset.OrderedMonoid
import Mathlib.Tactic.Abel
/-!
# Router — what the tables record against what the kernel holds

`deleteRule` finds a kernel rule by its table, chain and key, and the
tables record a rule by its table, chain and spec, whose `genRuleKey` is
the key. So both sides are counted as multisets of these triples:
`kernelKeys` for the kernel's ruleset, `Mgr.recordedKeys` for every entry
of every server's two tables.

Every rule builder records the triple its kernel rule carries (`Coherent`).
`Tracks` says that a body changed the kernel's triples exactly as it changed
its table's, and `balanced_locked` lifts that to the manager: the kernel
stays its first ruleset plus exactly what the tables record (`Balanced`).
-/

namespace Netclient

namespace Router

/-- What `deleteRule` finds a rule by: table, chain and key. -/
abbrev Triple := String × String × String

/-- A kernel rule's triple. -/
def NfRule.triple (n : NfRule) : Triple := (n.table, n.chain, n.key)

/-- The triples of a kernel ruleset. -/
def kernelKeys (rules : List NfRule) : Multiset Triple :=
  (rules.map NfRule.triple : Multiset Triple)

/-- A rule put in front adds its triple. -/
@[simp] theorem kernelKeys_cons (n : NfRule) (rules : List NfRule) :
    kernelKeys (n :: rules) = n.triple ::ₘ kernelKeys rules := rfl

/-- Erasing a present rule takes out its triple. -/
theorem kernelKeys_erase {rules : List NfRule} {n : NfRule} (h : n ∈ rules) :
    kernelKeys (rules.erase n) + {n.triple} = kernelKeys rules := by
  rw [add_comm, Multiset.singleton_add]
  exact (Multiset.coe_eq_coe.2 ((List.perm_cons_erase h).map NfRule.triple)).symm

/-- `getRule` finds a rule carrying a triple the kernel holds. -/
theorem getRule_of_mem {rules : List NfRule} {table chain key : String}
    (h : (table, chain, key) ∈ kernelKeys rules) :
    ∃ n, getRule rules table chain key = some n ∧ n ∈ rules ∧ n.triple = (table, chain, key) := by
  obtain ⟨n, hn, hτ⟩ := List.mem_map.1 (Multiset.mem_coe.1 h)
  rcases hg : getRule rules table chain key with _ | n'
  · have := List.find?_eq_none.1 hg n hn
    simp only [NfRule.triple, Prod.mk.injEq] at hτ
    simp [hτ] at this
  · have hp := List.find?_some hg
    simp only [decide_eq_true_eq] at hp
    exact ⟨n', rfl, List.mem_of_find?_eq_some hg, by simp [NfRule.triple, hp]⟩

/-- `getRule` finds nothing for a triple the kernel does not hold. -/
theorem getRule_of_not_mem {rules : List NfRule} {table chain key : String}
    (h : (table, chain, key) ∉ kernelKeys rules) : getRule rules table chain key = none := by
  rcases hg : getRule rules table chain key with _ | n
  · rfl
  · have hp := List.find?_some hg
    simp only [decide_eq_true_eq] at hp
    refine absurd (Multiset.mem_coe.2 (List.mem_map.2 ⟨n, List.mem_of_find?_eq_some hg, ?_⟩)) h
    simp [NfRule.triple, hp]

namespace World

/-- The next insertion's `Flush` succeeds. -/
def insertOk (w : World) : Prop := w.ins.head? ≠ some false

/-- Every deletion's `Flush` succeeds. -/
def deletesOk (w : World) : Prop := ∀ b ∈ w.del, b = true

/-- An insertion adds its rule's triple exactly when its `Flush` succeeds. -/
theorem kernelKeys_insertRule (w : World) (n : NfRule) :
    kernelKeys (w.insertRule n).1.rules =
      (if (w.insertRule n).2 then {n.triple} else 0) + kernelKeys w.rules := by
  unfold insertRule
  split
  · simp [Multiset.singleton_add]
  · rename_i ok ins _
    cases ok <;> simp [Multiset.singleton_add]

/-- With no failing `Flush` next, an insertion succeeds. -/
theorem insertRule_ok {w : World} (h : w.insertOk) (n : NfRule) : (w.insertRule n).2 = true := by
  unfold insertRule
  split
  · rfl
  · rename_i ok ins hw
    simp only [insertOk, hw, List.head?_cons, ne_eq, Option.some.injEq] at h
    simpa using h

/-- An insertion consumes one of the insertion replies. -/
theorem insertRule_ins (w : World) (n : NfRule) : (w.insertRule n).1.ins = w.ins.tail := by
  unfold insertRule
  split <;> simp_all

/-- When the first `n > 0` insertion replies all succeed, the next insertion does. -/
theorem insertOk_of_take {w : World} {n : Nat} (hn : 0 < n) (h : ∀ b ∈ w.ins.take n, b = true) :
    w.insertOk := by
  unfold insertOk
  rcases hw : w.ins with _ | ⟨b, ins⟩
  · simp
  · obtain ⟨n, rfl⟩ := Nat.exists_eq_succ_of_ne_zero (Nat.pos_iff_ne_zero.1 hn)
    rw [hw] at h
    simp [h b (List.mem_cons_self _ _)]

/-- After an insertion, the first `n` replies left succeed when the first `n + 1` did. -/
theorem take_insertRule {w : World} {n : Nat} (h : ∀ b ∈ w.ins.take (n + 1), b = true)
    (r : NfRule) : ∀ b ∈ (w.insertRule r).1.ins.take n, b = true := by
  rw [insertRule_ins]
  rcases hw : w.ins with _ | ⟨a, ins⟩
  · simp
  · rw [hw] at h
    exact fun b hb => h b (List.mem_cons_of_mem _ hb)

/-- Deleting a present rule takes its triple out of the kernel. -/
theorem deleteRule_of_mem {w : World} {table chain key : String}
    (h : (table, chain, key) ∈ kernelKeys w.rules) (hdel : w.deletesOk) :
    (w.deleteRule table chain key).2 = none ∧
      kernelKeys (w.deleteRule table chain key).1.rules + {(table, chain, key)} =
        kernelKeys w.rules ∧
      (w.deleteRule table chain key).1.deletesOk ∧
      (w.deleteRule table chain key).1.ins = w.ins := by
  obtain ⟨n, hg, hn, hτ⟩ := getRule_of_mem h
  unfold deleteRule
  rw [hg]
  rcases hd : w.del with _ | ⟨ok, del⟩
  · exact ⟨rfl, hτ ▸ kernelKeys_erase hn, by simp [deletesOk], rfl⟩
  · have hok : ok = true := hdel ok (by simp [hd])
    subst hok
    exact ⟨rfl, hτ ▸ kernelKeys_erase hn, fun b hb => hdel b (hd ▸ List.mem_cons_of_mem _ hb), rfl⟩

/-- Deleting an absent rule changes nothing. -/
theorem deleteRule_of_not_mem {w : World} {table chain key : String}
    (h : (table, chain, key) ∉ kernelKeys w.rules) :
    w.deleteRule table chain key = (w, some (.noSuchRule key)) := by
  simp [deleteRule, getRule_of_not_mem h]

end World

variable (E : Env)

/-- A recorded rule's triple: what `RemoveRoutingRules` deletes it by. -/
def RuleInfo.triple (r : RuleInfo) : Triple := (r.table, r.chain, E.genRuleKey r.rule)

/-- A rule whose kernel rule is found by its recorded triple. -/
def RuleInfo.Coherent (r : RuleInfo) : Prop := r.nfRule.triple = r.triple E

/-- The triples of a list of recorded rules. -/
def keysOf (rs : List RuleInfo) : Multiset Triple := (rs.map (RuleInfo.triple E) : Multiset Triple)

/-- The triples an entry records. -/
def cfgKeys (cfg : RulesCfg) : Multiset Triple := cfg.rulesMap.sumBy (keysOf E)

/-- The triples a table records. -/
def tableKeys (t : RuleTable) : Multiset Triple := t.sumBy (cfgKeys E)

/-- The triples every server's two tables record. -/
def Mgr.recordedKeys (m : Mgr) : Multiset Triple :=
  m.ingRules.sumBy (tableKeys E) + m.engressRules.sumBy (tableKeys E)

/-- No recorded rule, no triple. -/
@[simp] theorem keysOf_nil : keysOf E [] = 0 := rfl

/-- A recorded rule in front adds its triple. -/
@[simp] theorem keysOf_cons (r : RuleInfo) (rs : List RuleInfo) :
    keysOf E (r :: rs) = r.triple E ::ₘ keysOf E rs := rfl

/-- The triples of two lists of recorded rules add up. -/
@[simp] theorem keysOf_append (rs rs' : List RuleInfo) :
    keysOf E (rs ++ rs') = keysOf E rs + keysOf E rs' := by
  simp [keysOf]

/-- A list of recorded rules has no triple only when it is empty. -/
theorem keysOf_eq_zero {rs : List RuleInfo} : keysOf E rs = 0 ↔ rs = [] := by
  simp [keysOf]

/-- An empty table records no triple. -/
@[simp] theorem tableKeys_empty : tableKeys E GoMap.empty = 0 := rfl

/-- A missing table records nothing. -/
theorem tableKeys_getD (o : Option RuleTable) :
    tableKeys E (o.getD GoMap.empty) = (o.map (tableKeys E)).getD 0 := by
  cases o <;> rfl

/-- The triples of a flattened list are the sum of each part's. -/
theorem keysOf_flatMap {α : Type} (es : List α) (g : α → List RuleInfo) :
    keysOf E (es.flatMap g) = (es.map fun e => keysOf E (g e)).sum := by
  induction es with
  | nil => rfl
  | cons e es ih => simp [ih]

/-- An entry records the triples of all its rule lists. -/
theorem cfgKeys_eq (cfg : RulesCfg) :
    cfgKeys E cfg = keysOf E (cfg.rulesMap.entries.flatMap (·.2)) :=
  (keysOf_flatMap E _ _).symm

/-- A table records the triples of `allRules`. -/
theorem tableKeys_eq (t : RuleTable) : tableKeys E t = keysOf E t.allRules := by
  simp only [tableKeys, GoMap.sumBy, cfgKeys_eq, RuleTable.allRules, keysOf_flatMap]

/-! ## The builders record their kernel rule's triple -/

section Builders

variable (isIpv4 : Bool)

/-- The egress gateway's jump rule is found by its recorded triple. -/
@[simp] theorem egressGwJumpRule_coherent (range : String) (c : Cidr) :
    (egressGwJumpRule E isIpv4 range c).Coherent E := rfl

/-- So is an egress NAT rule. -/
@[simp] theorem egressNatRule_coherent (network : IPNet) (iface : String) (d : Dir) :
    (egressNatRule E isIpv4 network iface d).Coherent E := rfl

/-- So is the ext client's forward jump. -/
@[simp] theorem extFwdJumpRule_coherent (ext ingGw : IPNet) :
    (extFwdJumpRule E isIpv4 ext ingGw).Coherent E := rfl

/-- So is the ext client's MASQUERADE rule. -/
@[simp] theorem extMasqRule_coherent (ext : IPNet) (d : Dir) :
    (extMasqRule E isIpv4 ext d).Coherent E := rfl

/-- So is a peer's egress rule. -/
@[simp] theorem egressPeerRule_coherent (peer : IPNet) (range : String) (c : Cidr) :
    (egressPeerRule E isIpv4 peer range c).Coherent E := rfl

/-- So is an ingress peer's rule. -/
@[simp] theorem ingressPeerRule_coherent (extPeerAddr : IpText) (peer : IPNet) :
    (ingressPeerRule E isIpv4 extPeerAddr peer).Coherent E := rfl

/-- So is the ext client's network rule. -/
@[simp] theorem extNetworkRule_coherent (network ext : IPNet) :
    (extNetworkRule E isIpv4 network ext).Coherent E := rfl

/-- So is the ext client's rule to a peer. -/
@[simp] theorem extPeerRule_coherent (ext peer : IPNet) :
    (extPeerRule E isIpv4 ext peer).Coherent E := rfl

/-- So is the ext client's egress-range rule. -/
@[simp] theorem extRangeRule_coherent (ext : IPNet) (range : String) (c : Cidr) (d : Dir) :
    (extRangeRule E isIpv4 ext range c d).Coherent E := rfl

end Builders

/-- Inserting a coherent rule adds the triples of what it records. -/
theorem World.kernelKeys_add {r : RuleInfo} (hc : r.Coherent E) (w : World) :
    kernelKeys (w.add r).1.rules = keysOf E (w.add r).2 + kernelKeys w.rules := by
  unfold RuleInfo.Coherent RuleInfo.triple at hc
  simp only [World.add, w.kernelKeys_insertRule r.nfRule]
  split <;> simp [keysOf, RuleInfo.triple, hc]

/-! ## Tables -/

/-- Replacing an entry swaps its triples in the table's. -/
theorem tableKeys_insert (t : RuleTable) (k : String) (cfg : RulesCfg) :
    tableKeys E (t.insert k cfg) + ((t.get? k).map (cfgKeys E)).getD 0 =
      tableKeys E t + cfgKeys E cfg :=
  GoMap.sumBy_insert _ t k cfg

/-- Erasing an entry takes its triples out of the table's. -/
theorem tableKeys_erase (t : RuleTable) (k : String) :
    tableKeys E (t.erase k) + ((t.get? k).map (cfgKeys E)).getD 0 = tableKeys E t :=
  GoMap.sumBy_erase _ t k

/-- `ruleTable[k].rulesMap[k'] = rs` records `rs` in place of the old list. -/
theorem tableKeys_putRules {t : RuleTable} {k : String} {cfg : RulesCfg} (h : t.get? k = some cfg)
    (k' : String) (rs : List RuleInfo) :
    tableKeys E (t.putRules k k' rs) + ((cfg.rulesMap.get? k').map (keysOf E)).getD 0 =
      tableKeys E t + keysOf E rs := by
  have ht := tableKeys_insert E t k { cfg with rulesMap := cfg.rulesMap.insert k' rs }
  have hc := GoMap.sumBy_insert (keysOf E) cfg.rulesMap k' rs
  rw [h, Option.map_some', Option.getD_some] at ht
  simp only [RuleTable.putRules, h]
  apply add_right_cancel (b := cfgKeys E cfg)
  calc _ = (tableKeys E (t.insert k { cfg with rulesMap := cfg.rulesMap.insert k' rs }) +
          cfgKeys E cfg) + ((cfg.rulesMap.get? k').map (keysOf E)).getD 0 := by abel
    _ = tableKeys E t + (cfgKeys E { cfg with rulesMap := cfg.rulesMap.insert k' rs } +
          ((cfg.rulesMap.get? k').map (keysOf E)).getD 0) := by rw [ht, add_assoc]
    _ = _ := by rw [cfgKeys, hc, cfgKeys]; abel

/-- A missing list records nothing. -/
theorem keysOf_getD (o : Option (List RuleInfo)) :
    (o.map (keysOf E)).getD 0 = keysOf E (o.getD []) := by
  cases o <;> rfl

/-- A filtered list records no more than the list. -/
theorem keysOf_filter_le (p : RuleInfo → Bool) (rs : List RuleInfo) :
    keysOf E (rs.filter p) ≤ keysOf E rs :=
  Multiset.coe_le.2 ((List.filter_sublist rs).map _).subperm

/-- A list's triples split between those a filter keeps and those it drops. -/
theorem keysOf_filter_add (p : RuleInfo → Bool) (rs : List RuleInfo) :
    keysOf E (rs.filter p) + keysOf E (rs.filter fun r => !p r) = keysOf E rs := by
  induction rs with
  | nil => rfl
  | cons r rs ih =>
    cases hp : p r
    · simp [List.filter_cons, hp, ← ih, Multiset.add_cons]
    · simp [List.filter_cons, hp, ← ih]

/-- An entry's lists are among the triples it records. -/
theorem keysOf_le_cfgKeys {cfg : RulesCfg} {k : String} {rs : List RuleInfo}
    (h : cfg.rulesMap.get? k = some rs) : keysOf E rs ≤ cfgKeys E cfg := by
  have := GoMap.sumBy_erase (keysOf E) cfg.rulesMap k
  rw [h, Option.map_some', Option.getD_some] at this
  rw [cfgKeys, ← this]
  exact Multiset.le_add_left _ _

/-- A table's entries are among the triples it records. -/
theorem cfgKeys_le_tableKeys {t : RuleTable} {k : String} {cfg : RulesCfg}
    (h : t.get? k = some cfg) : cfgKeys E cfg ≤ tableKeys E t := by
  have := tableKeys_erase E t k
  rw [h, Option.map_some', Option.getD_some] at this
  rw [← this]
  exact Multiset.le_add_left _ _

/-! ## The manager -/

/-- `SaveRules` leaves the kernel alone. -/
@[simp] theorem Mgr.saveRules_rules (m : Mgr) (server name : String) (t : RuleTable) :
    (m.saveRules E server name t).rules = m.rules := by
  unfold Mgr.saveRules
  split_ifs <;> rfl

/-- A body's kernel is the manager's after it. -/
@[simp] theorem Mgr.withWorld_rules (m : Mgr) (w : World) : (m.withWorld w).rules = w.rules := rfl

/-- A body sees the manager's kernel. -/
@[simp] theorem Mgr.world_rules (m : Mgr) (rep : Replies) : (m.world rep).rules = m.rules := rfl

/-- A body's changes to the kernel leave the tables a fetch reads. -/
@[simp] theorem Mgr.fetchRuleTable_withWorld (m : Mgr) (w : World) (server name : String) :
    (m.withWorld w).fetchRuleTable E server name = m.fetchRuleTable E server name := rfl

/-- They leave what the tables record. -/
@[simp] theorem Mgr.recordedKeys_withWorld (m : Mgr) (w : World) :
    (m.withWorld w).recordedKeys E = m.recordedKeys E := rfl

/-- `SaveRules` of a table swaps its triples in for those it fetched. -/
theorem Mgr.recordedKeys_saveRules (m : Mgr) (server name : String) (t : RuleTable)
    (h : name = E.ingressTable ∨ name = E.egressTable ∨ t = m.fetchRuleTable E server name) :
    (m.saveRules E server name t).recordedKeys E + tableKeys E (m.fetchRuleTable E server name) =
      m.recordedKeys E + tableKeys E t := by
  unfold Mgr.saveRules Mgr.fetchRuleTable
  split_ifs with hi he
  · have := GoMap.sumBy_insert (tableKeys E) m.ingRules server t
    simp only [Mgr.recordedKeys, tableKeys_getD]
    rw [add_right_comm, this]
    abel
  · have := GoMap.sumBy_insert (tableKeys E) m.engressRules server t
    simp only [Mgr.recordedKeys, tableKeys_getD]
    rw [add_assoc, this]
    abel
  · obtain rfl : t = GoMap.empty := by simpa [Mgr.fetchRuleTable, hi, he] using h
    simp

/-- `DeleteRuleTable` takes the fetched table's triples out. -/
theorem Mgr.recordedKeys_deleteRuleTable (m : Mgr) (server name : String) :
    (m.deleteRuleTable E server name).recordedKeys E +
      tableKeys E (m.fetchRuleTable E server name) = m.recordedKeys E := by
  unfold Mgr.deleteRuleTable Mgr.fetchRuleTable
  split_ifs with hi he
  · have := GoMap.sumBy_erase (tableKeys E) m.ingRules server
    simp only [Mgr.recordedKeys, tableKeys_getD]
    rw [add_right_comm, this]
  · have := GoMap.sumBy_erase (tableKeys E) m.engressRules server
    simp only [Mgr.recordedKeys, tableKeys_getD]
    rw [add_assoc, this]
  · simp

/-- The kernel holds its first ruleset `rules₀` and, besides, exactly the
rules the tables record. -/
def Balanced (rules₀ : List NfRule) (m : Mgr) : Prop :=
  kernelKeys m.rules = kernelKeys rules₀ + m.recordedKeys E

/-- A body's run changed the kernel's triples exactly as it changed its
table's. -/
def Tracks (t : RuleTable) (w : World) (t' : RuleTable) (w' : World) : Prop :=
  kernelKeys w'.rules + tableKeys E t = kernelKeys w.rules + tableKeys E t'

/-- A step that changes nothing tracks. -/
theorem Tracks.refl (t : RuleTable) (w : World) : Tracks E t w t w := rfl

variable {E} in
/-- Steps that each track compose. -/
theorem Tracks.trans {t₁ t₂ t₃ : RuleTable} {w₁ w₂ w₃ : World} (h₁ : Tracks E t₁ w₁ t₂ w₂)
    (h₂ : Tracks E t₂ w₂ t₃ w₃) : Tracks E t₁ w₁ t₃ w₃ := by
  unfold Tracks at *
  apply add_right_cancel (b := tableKeys E t₂)
  calc _ = (kernelKeys w₃.rules + tableKeys E t₂) + tableKeys E t₁ := by abel
    _ = (kernelKeys w₂.rules + tableKeys E t₁) + tableKeys E t₃ := by rw [h₂]; abel
    _ = _ := by rw [h₁]; abel

/-- **A tracked body keeps the balance.** When the body run on the fetched
table tracks, the manager after fetch, body and `SaveRules` is balanced. -/
theorem balanced_locked {rules₀ : List NfRule} {m : Mgr} (hb : Balanced E rules₀ m)
    (rep : Replies) (server name : String) (body : RuleTable → World → Outcome × RuleTable × World)
    (ht : Tracks E (m.fetchRuleTable E server name) (m.world rep)
      (body (m.fetchRuleTable E server name) (m.world rep)).2.1
      (body (m.fetchRuleTable E server name) (m.world rep)).2.2)
    (hname : name = E.ingressTable ∨ name = E.egressTable ∨
      (body (m.fetchRuleTable E server name) (m.world rep)).2.1 = m.fetchRuleTable E server name) :
    Balanced E rules₀ (m.locked E rep server name body).2 := by
  have hs := (m.withWorld (body (m.fetchRuleTable E server name) (m.world rep)).2.2)
    |>.recordedKeys_saveRules E server name _ hname
  simp only [Mgr.recordedKeys_withWorld, Mgr.fetchRuleTable_withWorld] at hs
  unfold Balanced Tracks at *
  apply add_right_cancel (b := tableKeys E (m.fetchRuleTable E server name))
  simp only [Mgr.locked, Mgr.saveRules_rules]
  rw [add_assoc, hs, Mgr.withWorld_rules, ht, Mgr.world_rules, hb, add_assoc]

end Router

end Netclient
