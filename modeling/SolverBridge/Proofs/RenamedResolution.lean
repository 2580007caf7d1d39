import SolverBridge.Proofs.Defined
import SolverBridge.Proofs.Renaming
import SolverBridge.Proofs.TableResolution

/-! Resolution under other names, and over other domains. Reformulation asks for the domains of the
variables of a constraint and for nothing else about variables. So where each variable has, under
its other name, the domain that it had, a renamed constraint is resolved to what the constraint
itself is resolved to, under the other names; and domains that agree on the variables of a
constraint resolve it alike. -/

namespace SolverBridge

variable {α : Type}

/-- Each variable has under its other name the domain that it had. -/
def Renaming.Keeps (ρ : Renaming) (domains domains' : List (Domain α)) : Prop :=
  ∀ v : Var, domains'[(ρ v).index]? = domains[v.index]?

/-- Domains that come in front move the others up. -/
theorem Renaming.keeps_shift (before domains : List (Domain α)) :
    (shift before.length).Keeps domains (before ++ domains) := by
  intro v
  show (before ++ domains)[before.length + v.index]? = domains[v.index]?
  rw [List.getElem?_append_right (Nat.le_add_right _ _), Nat.add_sub_cancel_left]

/-! ### Reformulation -/

section Reformulation

variable [Scalar α] {ρ : Renaming} {domains domains' : List (Domain α)}

theorem isBinaryVar_renamed (h : ρ.Keeps domains domains') (v : Var) :
    isBinaryVar domains' (ρ v) = isBinaryVar domains v := by
  rw [isBinaryVar, isBinaryVar, h]

namespace FuncGraph

theorem isBinary_renamed (h : ρ.Keeps domains domains') (g : FuncGraph α) :
    (g.renamed ρ).isBinary domains' = g.isBinary domains := by
  have args : (isBinaryVar domains' ∘ ρ) = isBinaryVar domains := funext (isBinaryVar_renamed h)
  simp only [isBinary, renamed, isBinaryVar_renamed h, List.isEmpty_map, List.all_map, args]

variable (ρ)

theorem differenceForm_renamed (g : FuncGraph α) (x : Var) :
    (g.renamed ρ).differenceForm (ρ x) = (g.differenceForm x).renamed ρ := by
  rw [differenceForm, differenceForm, ← LinearForm.ofTerms_renamed]
  rfl

theorem excessForm_renamed (g : FuncGraph α) :
    (g.renamed ρ).excessForm = g.excessForm.renamed ρ := by
  rw [excessForm, excessForm, ← LinearForm.ofTerms_renamed]
  simp only [renamed, renamedTerms, List.map_cons, List.map_map]
  rfl

/-- The rows about the arguments, which are all of one shape. -/
theorem eachRow_renamed (row : LinearForm α → LinearRow α)
    (hrow : ∀ f, row (f.renamed ρ) = (row f).renamed ρ) (g : FuncGraph α) :
    (g.renamed ρ).args.map (fun x => row ((g.renamed ρ).differenceForm x)) =
      (g.args.map fun x => row (g.differenceForm x)).map (LinearRow.renamed ρ) := by
  rw [renamed, List.map_map, List.map_map]
  refine List.map_congr_left fun x _ => ?_
  exact (congrArg row (g.differenceForm_renamed ρ x)).trans (hrow _)

theorem conjunctionRows_renamed (g : FuncGraph α) :
    (g.renamed ρ).conjunctionRows = g.conjunctionRows.map (LinearRow.renamed ρ) := by
  have count : (g.renamed ρ).args.length = g.args.length := List.length_map _
  rw [conjunctionRows, conjunctionRows, g.eachRow_renamed ρ (LinearRow.atMost · 0) fun _ => rfl,
    excessForm_renamed, count, List.map_append]
  rfl

theorem disjunctionRows_renamed (g : FuncGraph α) :
    (g.renamed ρ).disjunctionRows = g.disjunctionRows.map (LinearRow.renamed ρ) := by
  rw [disjunctionRows, disjunctionRows, g.eachRow_renamed ρ (LinearRow.atLeast · 0) fun _ => rfl,
    excessForm_renamed, List.map_append]
  rfl

end FuncGraph

theorem definitionRow_renamed (ρ : Renaming) (r : Var) (f : LinearForm α) (k : α) :
    definitionRow (ρ r) (f.renamed ρ) k = (definitionRow r f k).renamed ρ := by
  have form := LinearForm.ofTerms_renamed ρ ((1, r) :: f.negatedTerms)
  rw [definitionRow, definitionRow, LinearForm.negatedTerms_renamed]
  exact congrArg (LinearRow.equal · k) form

namespace Indicator

theorem largestViolation?_renamed (h : ρ.Keeps domains domains') (i : Indicator α) :
    (i.renamed ρ).largestViolation? domains' = i.largestViolation? domains := by
  simp only [largestViolation?, renamed, LinearForm.renamed, renamedTerms, List.foldlM_map, h _]

theorem relaxedRow_renamed (ρ : Renaming) (i : Indicator α) (m : α) :
    (i.renamed ρ).relaxedRow m = (i.relaxedRow m).renamed ρ := by
  have relaxed (k : α) : (i.renamed ρ).form.extended [(k, (i.renamed ρ).trigger)] =
      (i.form.extended [(k, i.trigger)]).renamed ρ :=
    LinearForm.extended_renamed ρ i.form [(k, i.trigger)]
  have value : (i.renamed ρ).value = i.value := rfl
  rw [relaxedRow, relaxedRow, relaxed, relaxed, value]
  split <;> rfl

theorem rows?_renamed (h : ρ.Keeps domains domains') (i : Indicator α) :
    (i.renamed ρ).rows? domains' = (i.rows? domains).map (List.map (LinearRow.renamed ρ)) := by
  have trigger : isBinaryVar domains' (i.renamed ρ).trigger = isBinaryVar domains i.trigger :=
    isBinaryVar_renamed h i.trigger
  rw [rows?, rows?, trigger, largestViolation?_renamed h]
  split
  · cases i.largestViolation? domains with
    | none => rfl
    | some m =>
      dsimp only
      split
      · split
        · rfl
        · rw [relaxedRow_renamed]
          rfl
      · rfl
  · rfl

end Indicator

namespace FlatConstraint

theorem rows?_renamed (h : ρ.Keeps domains domains') (c : FlatConstraint α) :
    (c.renamed ρ).rows? domains' = (c.rows? domains).map (List.map (LinearRow.renamed ρ)) := by
  cases c with
  | linearDefining r f k => exact congrArg (some [·]) (definitionRow_renamed ρ r f k)
  | indicator i => exact i.rows?_renamed h
  | function f g =>
    cases f with
    | conjunction =>
      simp only [renamed, rows?, g.isBinary_renamed h, g.conjunctionRows_renamed]
      split <;> rfl
    | disjunction =>
      simp only [renamed, rows?, g.isBinary_renamed h, g.disjunctionRows_renamed]
      split <;> rfl
    | _ => rfl
  | linear | quadratic | general => rfl

theorem reformulate?_renamed (h : ρ.Keeps domains domains') (c : FlatConstraint α) :
    (c.renamed ρ).reformulate? domains' = (c.reformulate? domains).map (List.map (renamed ρ)) := by
  rw [reformulate?, reformulate?, rows?_renamed h]
  simp only [Option.map_map, Function.comp_def, List.map_map]
  rfl

end FlatConstraint

/-! ### Resolution -/

/-- A change of constraints that keeps kinds and commutes with their reformulation commutes with
their resolution. -/
theorem resolveConstraint_commutes (table : AcceptanceTable) {c : FlatConstraint α}
    {f : FlatConstraint α → FlatConstraint α} (kind : ∀ d, (f d).kind = d.kind)
    (h : (f c).reformulate? domains' = (c.reformulate? domains).map (List.map f)) :
    resolveConstraint table domains' (f c) =
      (resolveConstraint table domains c).map (List.map f) := by
  have pieces {P : Acceptance → Prop} : (∃ ds, (f c).reformulate? domains' = some ds ∧
      ∀ d ∈ ds, P (table.constraint d.kind)) →
      ∃ ds, c.reformulate? domains = some ds ∧ ∀ d ∈ ds, P (table.constraint d.kind) := by
    rintro ⟨_, changed, all⟩
    rw [h] at changed
    obtain ⟨ds, before, rfl⟩ := Option.map_eq_some_iff.1 changed
    simp only [List.forall_mem_map, kind] at all
    exact ⟨ds, before, all⟩
  refine (resolved_resolveConstraint table domains' (f c)).unique ?_
  have resolved := resolved_resolveConstraint table domains c
  generalize resolveConstraint table domains c = outcome at resolved
  cases resolved with
  | recommended hk => exact .recommended ((kind c).symm ▸ hk)
  | preferred hk hpieces recommended =>
    rw [hpieces] at h
    refine .preferred ((kind c).symm ▸ hk) h (List.forall_mem_map.2 fun d hd => ?_)
    rw [kind]
    exact recommended d hd
  | kept hk unwelcome =>
    exact .kept ((kind c).symm ▸ hk) fun welcome =>
      unwelcome (pieces (P := (· = .recommended)) welcome)
  | replaced hk hpieces taken =>
    rw [hpieces] at h
    refine .replaced ((kind c).symm ▸ hk) h (List.forall_mem_map.2 fun d hd => ?_)
    rw [kind]
    exact taken d hd
  | failed hk refused =>
    have failed : Resolved table domains' (f c) (.error ⟨(f c).kind⟩) :=
      .failed ((kind c).symm ▸ hk) fun takes => refused (pieces (P := (·.isAccepted = true)) takes)
    rwa [kind] at failed

/-- Under other names a constraint is resolved to the same, if the domains are the same. -/
theorem resolveConstraint_renamed (table : AcceptanceTable) (h : ρ.Keeps domains domains')
    (c : FlatConstraint α) : resolveConstraint table domains' (c.renamed ρ) =
      (resolveConstraint table domains c).map (List.map (FlatConstraint.renamed ρ)) :=
  resolveConstraint_commutes table (FlatConstraint.kind_renamed ρ) (c.reformulate?_renamed h)

omit [Scalar α] in
theorem resolveObjective_renamed (table : AcceptanceTable) (ρ : Renaming) (o : FlatObjective α) :
    resolveObjective table (o.renamed ρ) =
      (resolveObjective table o).map (FlatObjective.renamed ρ) := by
  rw [resolveObjective, resolveObjective, o.kind_renamed ρ]
  split <;> rfl

/-! ### Other domains -/

/-- The variables have the same domains. -/
def Agree (vs : List Var) (domains domains' : List (Domain α)) : Prop :=
  ∀ v ∈ vs, domains'[v.index]? = domains[v.index]?

theorem Agree.isBinaryVar {vs : List Var} (h : Agree vs domains domains') {v : Var} (hv : v ∈ vs) :
    isBinaryVar domains' v = isBinaryVar domains v := by
  rw [SolverBridge.isBinaryVar, SolverBridge.isBinaryVar, h v hv]

theorem Indicator.largestViolation?_congr {i : Indicator α}
    (h : Agree i.form.vars domains domains') :
    i.largestViolation? domains' = i.largestViolation? domains := by
  rw [largestViolation?, largestViolation?]
  rw [LinearForm.vars] at h
  generalize -i.rhs = start
  generalize i.form.terms = terms at h ⊢
  induction terms generalizing start with
  | nil => rfl
  | cons t rest ih =>
    obtain ⟨first, further⟩ := List.forall_mem_cons.1 h
    rw [List.foldlM_cons, List.foldlM_cons, first]
    exact congrArg _ (funext fun m => ih _ further)

namespace FlatConstraint

variable {c : FlatConstraint α}

theorem rows?_congr (h : Agree c.vars domains domains') : c.rows? domains' = c.rows? domains := by
  cases c with
  | indicator i =>
    have trigger : isBinaryVar domains' i.trigger = isBinaryVar domains i.trigger :=
      h.isBinaryVar List.mem_cons_self
    have violation : i.largestViolation? domains' = i.largestViolation? domains :=
      Indicator.largestViolation?_congr fun v hv => h v (List.mem_cons_of_mem _ hv)
    rw [rows?, rows?, Indicator.rows?, Indicator.rows?, trigger, violation]
  | function f g =>
    have binary : g.isBinary domains' = g.isBinary domains := by
      have args : g.args.all (isBinaryVar domains') = g.args.all (isBinaryVar domains) := by
        rw [Bool.eq_iff_iff, List.all_eq_true, List.all_eq_true]
        exact forall₂_congr fun v hv => by rw [h.isBinaryVar (List.mem_cons_of_mem _ hv)]
      rw [FuncGraph.isBinary, FuncGraph.isBinary, h.isBinaryVar List.mem_cons_self, args]
    cases f <;> simp only [rows?, binary]
  | linear | quadratic | linearDefining | general => rfl

end FlatConstraint

/-- A constraint is resolved by the domains of its own variables. -/
theorem resolveConstraint_congr (table : AcceptanceTable) {c : FlatConstraint α}
    (h : Agree c.vars domains domains') :
    resolveConstraint table domains' c = resolveConstraint table domains c := by
  have same : c.reformulate? domains' = (c.reformulate? domains).map (List.map id) := by
    rw [FlatConstraint.reformulate?, FlatConstraint.rows?_congr h, List.map_id_fun]
    exact (congrFun Option.map_id _).symm
  have resolved := resolveConstraint_commutes table (f := id) (fun _ => rfl) same
  simpa using resolved

end Reformulation

end SolverBridge
