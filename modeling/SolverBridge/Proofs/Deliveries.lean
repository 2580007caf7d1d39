import SolverBridge.Proofs.PlanRuns
import SolverBridge.Proofs.Questions

/-! What the sink is given, and by whom. Only a report gives anything to the sink, and it gives the
outcome at its end, so that a report that fails has given nothing. The walk through an operation
that shows this also tells apart the two sorts of errors: an operation that was not refused by its
own checks is not refused later. What a failed operation says of that is a parameter, since some
callers know that the checks pass and others do not care. -/

namespace SolverBridge

variable {σ α : Type}

/-- Both of what is known of the end. -/
theorem Ends.and {β : Type} {a : SessionAction σ α β} {w : World σ α}
    {Q Q' : β → World σ α → Prop} {E E' : SessionError → World σ α → Prop}
    (h : Ends a w Q E) (h' : Ends a w Q' E') :
    Ends a w (fun x v => Q x v ∧ Q' x v) fun e v => E e v ∧ E' e v := by
  rw [Ends] at h h' ⊢
  split at h <;> rename_i e <;> rw [e] at h' <;> exact ⟨h, h'⟩

/-- The second session has the deliveries of the first, and an error that is a refusal comes only
if `R` holds. -/
def World.Unheard (w : World σ α) (R : Prop) (e : SessionError) (w' : World σ α) : Prop :=
  w'.1.deliveries = w.1.deliveries ∧ (e.fault.IsRefusal → R)

/-- Nothing is delivered, and the action is refused only if `R` holds. -/
def Silent {β : Type} (R : Prop) (a : SessionAction σ α β) (w : World σ α) : Prop :=
  Ends a w (fun _ w' => w'.1.deliveries = w.1.deliveries) (w.Unheard R)

namespace Silent

variable {β γ : Type} {R : Prop} {b : Backend σ α} {w : World σ α} {a : SessionAction σ α β}

theorem seq {f : β → SessionAction σ α γ} (ha : Silent R a w)
    (hf : ∀ x w', Silent R (f x) w') : Silent R (a >>= f) w := by
  refine .bind (.mono ha (fun x w' same => ?_) fun _ _ h => h)
  exact .mono (hf x w') (fun _ _ same' => same'.trans same) fun _ _ h => ⟨h.1.trans same, h.2⟩

theorem pure {x : β} : Silent (σ := σ) (α := α) R (Pure.pure x) w := Ends.pure rfl

theorem request {r : Request α} : Silent R (Session.request b r) w := Ends.request rfl

theorem abort {operation : String} {f : Failure} :
    Silent R (Session.abort b (Session.nativeFault operation f) : SessionAction σ α β) w :=
  Ends.abort fun _ => ⟨rfl, False.elim⟩

theorem post {operation : String} {answer : Except Failure Unit} :
    Silent R (Session.post b operation answer) w := by
  cases answer with
  | ok => exact pure
  | error => exact abort

theorem demand {operation : String} {answer : Except Failure β} :
    Silent R (Session.demand b operation answer) w :=
  Ends.demand (fun _ _ => rfl) fun _ _ => ⟨rfl, False.elim⟩

end Silent

namespace Session

variable {R : Prop} {b : Backend σ α} {w : World σ α}

/-! ### Opening and closing -/

theorem ends_release (b : Backend σ α) (w : World σ α) :
    Ends (release b) w
      (fun _ w' => w'.1.stage = .closed ∧ w'.1.deliveries = w.1.deliveries) fun _ _ => False := by
  refine .bind <| .getSession ?_
  extract_lets close
  refine .ite (fun _ => ?_) fun _ => .modifySession ⟨rfl, rfl⟩
  exact .bind <| .request <| .bind <| .modifySession <| .bind <| .backendName <| .bind <| .log <|
    .modifySession ⟨rfl, rfl⟩

theorem ends_settle (b : Backend σ α) (w : World σ α) :
    Ends (settle b) w
      (fun _ w' => w'.1.stage = .closed ∧ w'.1.deliveries = w.1.deliveries) fun _ _ => False :=
  .bind <| .getSession <| .ite (fun closed => .pure ⟨closed, rfl⟩) fun _ => ends_release b w

theorem silent_acquire (hR : w.1.stage ≠ .created → R) : Silent R (acquire b) w := by
  refine .bind <| .expectStage (fun _ => ?_) fun other => ⟨rfl, fun _ => hR other⟩
  refine .bind <| .now <| .bind <| .modifySession <| .bind <| .request ?_
  split
  · exact .bind <| .modifySession <| .bind <| .errorOf <| .bind <| .log <| .throw ⟨rfl, False.elim⟩
  · refine .bind <| .modifySession <| .bind <| .request ?_
    split
    · refine .bind <| .errorOf <| .bind <| .log <| .bind <| .mono (ends_release b _) ?_ ?_
      · exact fun _ _ left => .throw ⟨left.2, False.elim⟩
      · exact fun _ _ never => never.elim
    · exact .bind <| .modifySession <| .bind <| .backendName <| .log rfl

/-! ### Handing the problem over -/

theorem silent_expectModifiable {operation : String} (hR : ¬w.Modifiable → R) :
    Silent R (expectModifiable b operation) w := by
  refine .bind <| .expectStage (fun stage => ?_) fun other => ⟨rfl, fun _ => hR fun h => other h.1⟩
  refine .expectNotAborted (fun _ => rfl) fun aborted => ⟨rfl, fun _ => hR fun h => ?_⟩
  exact Bool.false_ne_true (h.2.symm.trans aborted)

/-- The end of the modification closes it. -/
theorem ends_finish (hR : ¬w.Modifiable → R) :
    Ends (finish b) w
      (fun _ w' => w'.1.stage = .modificationClosed ∧ w'.1.deliveries = w.1.deliveries)
      (w.Unheard R) := by
  refine .bind <| .mono (silent_expectModifiable hR) (fun _ w₁ same₁ => ?_) fun _ _ h => h
  refine .bind <| .request <| .bind <| .mono Silent.post (fun _ w₂ same₂ => ?_)
    fun _ _ h => ⟨h.1.trans same₁, h.2⟩
  refine .bind <| .getSession ?_
  extract_lets file close warn
  have closes (w' : World σ α) (same : w'.1.deliveries = w.1.deliveries) :
      Ends (close ()) w' (fun _ w' => w'.1.stage = .modificationClosed ∧
        w'.1.deliveries = w.1.deliveries) (w.Unheard R) :=
    .bind <| .modifySession <| .log ⟨rfl, same⟩
  have warns (w' : World σ α) (same : w'.1.deliveries = w.1.deliveries) :
      Ends (warn ()) w' (fun _ w' => w'.1.stage = .modificationClosed ∧
        w'.1.deliveries = w.1.deliveries) (w.Unheard R) :=
    .bind <| .getSession <| .ite (fun _ => closes w' same) fun _ => .bind <| .log <| closes _ same
  have same := same₂.trans same₁
  refine .ite (fun _ => warns w₂ same) fun _ => .bind <| .request <| .bind <|
    .mono Silent.post (fun _ w₃ same₃ => ?_) fun _ _ h => ⟨h.1.trans same, h.2⟩
  exact .bind <| .log <| warns _ (same₃.trans same)

section Loading

variable [Scalar α]

omit [Scalar α] in
theorem silent_rejectElement {element : Element} {kind : Kind} :
    Silent R (rejectElement b element kind) w :=
  .bind <| .getSession <| .ite (fun _ => .bind <| .log <| .modifySession rfl) fun _ =>
    .abort fun _ => ⟨rfl, False.elim⟩

omit [Scalar α] in
theorem silent_addVariable (hR : R) (d : Domain α) : Silent R (addVariable b d) w :=
  (silent_expectModifiable fun _ => hR).seq fun _ _ => Silent.request.seq fun _ _ =>
    Silent.post.seq fun _ _ => .bind <| .getSession <| .bind <| .modifySession <| .bind <|
    .trace fun _ => .pure rfl

theorem silent_addObjective (hR : R) (i : Nat) (o : Objective α) :
    Silent R (addObjective b i o) w := by
  refine (silent_expectModifiable fun _ => hR).seq fun _ w₁ => ?_
  dsimp only
  split
  · exact silent_rejectElement
  · exact .bind <| .trace fun _ => Silent.request.seq fun _ _ => .post

omit [Scalar α] in
theorem silent_postPieces (pieces : List (FlatConstraint α)) :
    Silent R (postPieces b pieces) w := by
  induction pieces generalizing w with
  | nil => exact .pure
  | cons c rest ih => exact Silent.request.seq fun _ _ => Silent.post.seq fun _ _ => ih

theorem silent_addConstraint (hR : R) (i : Nat) (c : Constraint α) :
    Silent R (addConstraint b i c) w := by
  refine (silent_expectModifiable fun _ => hR).seq fun _ w₁ => Silent.request.seq fun _ w₂ => ?_
  refine .bind <| .getSession ?_
  split
  · exact silent_rejectElement
  · exact .bind <| .trace fun _ => silent_postPieces _

omit [Scalar α] in
theorem silent_addVariables (hR : R) (ds : List (Domain α)) : Silent R (addVariables b ds) w := by
  induction ds generalizing w with
  | nil => exact .pure
  | cons d rest ih => exact (silent_addVariable hR d).seq fun _ _ => ih

theorem silent_addObjectives (hR : R) (i : Nat) (os : List (Objective α)) :
    Silent R (addObjectives b i os) w := by
  induction os generalizing w i with
  | nil => exact .pure
  | cons o rest ih => exact (silent_addObjective hR i o).seq fun _ _ => ih (i + 1)

theorem silent_addConstraints (hR : R) (i : Nat) (cs : List (Constraint α)) :
    Silent R (addConstraints b i cs) w := by
  induction cs generalizing w i with
  | nil => exact .pure
  | cons c rest ih => exact (silent_addConstraint hR i c).seq fun _ _ => ih (i + 1)

theorem silent_load (hR : R) (m : Problem α) : Silent R (load b m) w :=
  (silent_expectModifiable fun _ => hR).seq fun _ _ => .bind <| .now <|
    (silent_addVariables hR _).seq fun _ _ => (silent_addObjectives hR _ _).seq fun _ _ =>
    (silent_addConstraints hR _ _).seq fun _ _ => .bind <| .now <| .bind <| .getSession <| .log rfl

end Loading

/-! ### Solving -/

/-- A solve that leaves the session solved and fails was failed by the backend. -/
theorem ends_solve (hR : w.1.stage ≠ .modificationClosed ∨ w.1.aborted = true → R) :
    Ends (solve b) w (fun _ w' => w'.1.deliveries = w.1.deliveries) fun e w' =>
      w.Unheard R e w' ∧ (w.1.stage ≠ .solved → w'.1.stage = .solved →
        ∃ f, e = ⟨b.longName w'.1.solver, nativeFault "solve" f⟩ ∧
          w'.1.solveFailure = some f.chain) := by
  refine .bind <| .expectStage (fun closed => ?_) fun other =>
    ⟨⟨rfl, fun _ => hR (.inl other)⟩, fun unsolved solved => absurd solved unsolved⟩
  refine .bind <| .expectNotAborted (fun _ => ?_) fun aborted =>
    ⟨⟨rfl, fun _ => hR (.inr aborted)⟩, fun unsolved solved => absurd solved unsolved⟩
  have handed : Ends (handOverStopFlag b) w.lowered
      (fun _ w' => w'.1.deliveries = w.1.deliveries)
      (fun e w' => w.Unheard R e w' ∧ w'.1.stage = w.1.stage) := by
    refine .bind <| .getSession <| .ite (fun _ => .pure rfl) fun _ => ?_
    exact .bind <| .request <| .bind <| .demand (fun _ _ => .modifySession rfl)
      fun _ _ => ⟨⟨rfl, False.elim⟩, rfl⟩
  refine .bind <| .lowerStopFlag <| .bind <| .mono handed (fun _ w₁ same => ?_) fun e w' h =>
    ⟨h.1, fun unsolved solved => absurd (h.2.symm.trans solved) unsolved⟩
  refine .bind <| .now <| .bind <| .modifySession <| .bind <| .request <| .bind <| .now <|
    .bind <| .modifySession ?_
  split
  · exact .log same
  · rename_i f _
    exact .bind <| .errorOf <| .bind <| .modifySession <| .bind <| .log <| .throw
      ⟨⟨same, False.elim⟩, fun _ _ => ⟨f, rfl, rfl⟩⟩

/-! ### Reporting -/

theorem silent_verdict : Silent R (verdict b) w := by
  refine .bind <| .isStopped <| .ite (fun _ => .pure rfl) fun _ => .bind <| .getSession ?_
  split
  · exact .pure rfl
  · exact Silent.request.seq fun _ _ => Silent.demand.seq fun _ _ => .bind <| .isStopped <|
      Silent.request.seq fun _ _ => .pure

theorem silent_readSolution {status : SolveStatus} {mixedInteger : Bool} :
    Silent R (readSolution b status mixedInteger) w := by
  refine .ite (fun _ => Silent.request.seq fun _ _ => Silent.demand.seq fun primal w₁ => ?_)
    fun _ => .pure rfl
  extract_lets readRest
  have reads (dual : Option (List α)) (w : World σ α) : Silent R (readRest dual) w := by
    refine Silent.request.seq fun n w₁ => ?_
    extract_lets finish
    have finishes (x : Option α) (w : World σ α) : Silent R (finish x) w := .pure
    exact .ite (fun _ => Silent.request.seq fun _ _ => Silent.demand.seq fun _ _ =>
      Silent.pure.seq finishes) fun _ => Silent.pure.seq finishes
  exact .ite (fun _ => Silent.pure.seq reads) fun _ => Silent.request.seq fun _ _ =>
    Silent.demand.seq fun _ _ => Silent.pure.seq reads

/-- Only suffixes are delivered from the first session to the second. -/
def GivesSuffixes (w w' : World σ α) : Prop :=
  ∃ suffixes, (∀ d ∈ suffixes, d.IsSuffix) ∧ w'.1.deliveries = w.1.deliveries ++ suffixes

theorem GivesSuffixes.none {w w' : World σ α} (same : w'.1.deliveries = w.1.deliveries) :
    GivesSuffixes w w' := ⟨[], List.forall_mem_nil _, by rw [same, List.append_nil]⟩

theorem GivesSuffixes.trans {w w' w'' : World σ α} (first : GivesSuffixes w w')
    (second : GivesSuffixes w' w'') : GivesSuffixes w w'' := by
  obtain ⟨before, suffixes, same⟩ := first
  obtain ⟨after, suffixes', same'⟩ := second
  exact ⟨before ++ after, List.forall_mem_append.2 ⟨suffixes, suffixes'⟩,
    by rw [same', same, List.append_assoc]⟩

theorem GivesSuffixes.one {d : Delivery α} (hd : d.IsSuffix) :
    GivesSuffixes w ({ w.1 with deliveries := w.1.deliveries ++ [d] }, w.2) :=
  ⟨[d], List.forall_mem_singleton.2 hd, rfl⟩

theorem ends_reportIis {options : BaseOptions} {status : SolveStatus}
    {E : SessionError → World σ α → Prop} :
    Ends (reportIis b options status) w (fun _ => GivesSuffixes w) E := by
  refine .ite (fun _ => .bind <| .request ?_) fun _ => .pure (.none rfl)
  split
  · exact .bind <| .modifySession <| .modifySession <|
      .trans (.one (d := .intSuffix _ _) trivial) (.one (d := .intSuffix _ _) trivial)
  · exact .log (.none rfl)

theorem ends_reportGap [Scalar α] {options : BaseOptions} {mixedInteger : Bool}
    {E : SessionError → World σ α → Prop} :
    Ends (reportGap b options mixedInteger) w (fun _ => GivesSuffixes w) E := by
  refine .ite (fun _ => .bind <| .request ?_) fun _ => .pure (.none rfl)
  extract_lets _ deliverRest
  have delivers (w' : World σ α) (first : GivesSuffixes w w') :
      Ends (deliverRest ()) w' (fun _ => GivesSuffixes w) E :=
    .ite (fun _ => .modifySession (first.trans (.one (d := .numSuffix _ _) trivial)))
      fun _ => .pure first
  refine .ite (fun _ => .bind <| .request <| .bind <| .modifySession <| delivers _ ?_)
    fun _ => delivers _ (.none rfl)
  exact .one (d := .numSuffix _ _) trivial

variable [Scalar α] [Numeral α]

/-- Everything that can fail is asked before the first suffix is given. -/
theorem ends_readResults {status : SolveStatus} :
    Ends (readResults b status) w (fun _ => GivesSuffixes w) (w.Unheard R) := by
  refine .bind <| .getSession <| .ite (fun _ => .pure (.none rfl)) fun _ => ?_
  refine .bind <| .request <| .bind <| .mono silent_readSolution (fun reading w₁ same => ?_)
    fun _ _ h => h
  extract_lets finish
  have finishes (nodes : Option Nat) (w' : World σ α)
      (same : w'.1.deliveries = w.1.deliveries) :
      Ends (finish nodes) w' (fun _ => GivesSuffixes w) (w.Unheard R) := by
    refine .bind <| .request <| .bind <| .getSession <| .bind <|
      .mono ends_reportIis (fun _ w₂ first => ?_) fun _ _ h => h
    refine .bind <| .mono ends_reportGap (fun _ w₃ second => .pure ?_) fun _ _ h => h
    exact (GivesSuffixes.none same).trans (first.trans second)
  exact .ite (fun _ => .bind <| .map <| .request <| finishes _ _ same)
    fun _ => .bind <| .pure <| finishes _ _ same

/-- What was read is delivered as an outcome, and at most the durations are printed after it. -/
theorem ends_report_of {Q : SolveReport α → World σ α → Prop}
    {E : SessionError → World σ α → Prop}
    (hstage : w.1.stage ≠ .solved → E ⟨b.longName w.1.solver, .lifecycle "report" w.1.stage⟩ w)
    (h : Ends (verdict b) w (fun v w₁ =>
      Ends (readResults b v.status) w₁ (fun x w₂ =>
        ∀ r : SolveReport α, r = {
            status := v.status
            solveCode := v.status.code
            message := Report.summaryLine (b.longName w₁.1.solver) v.message ++ x.2
            objective := x.1.objective
            primal := x.1.primal
            dual := x.1.dual } →
          ∀ prints w₃, (∀ d ∈ prints, d.IsPrint) →
            w₃.1.deliveries = w₂.1.deliveries ++ .outcome r.outcome :: prints → Q r w₃) E) E) :
    Ends (report b) w Q E := by
  refine .bind <| .expectStage (fun _ => ?_) hstage
  refine .bind <| .mono h (fun v w₁ h => ?_) fun _ _ h => h
  refine .bind <| .backendName <| .bind <| .mono h (fun x w₂ h => ?_) fun _ _ h => h
  refine .bind <| .modifySession <| .bind <| .now <| .bind <| .modifySession <| .bind <|
    .getSession ?_
  extract_lets close
  refine .ite (fun _ => .bind <| .modifySession ?_) fun _ => ?_
  · exact .bind <| .modifySession <| .bind <| .log <| .pure <|
      h _ rfl [.print _] _ (List.forall_mem_singleton.2 trivial) (List.append_assoc _ _ _)
  · exact .bind <| .modifySession <| .bind <| .log <| .pure <|
      h _ rfl [] _ (List.forall_mem_nil _) rfl

/-- Between the two sessions a report was delivered: suffixes, its outcome, and what is printed. -/
def GivesReport (w w' : World σ α) (o : Outcome α) : Prop :=
  ∃ suffixes prints, (∀ d ∈ suffixes, d.IsSuffix) ∧ (∀ d ∈ prints, d.IsPrint) ∧
    w'.1.deliveries = w.1.deliveries ++ suffixes ++ .outcome o :: prints

/-- A report that fails has delivered nothing. -/
theorem ends_report_deliveries (hR : w.1.stage ≠ .solved → R) :
    Ends (report b) w (fun r w' => GivesReport w w' r.outcome) (w.Unheard R) := by
  refine ends_report_of (fun other => ⟨rfl, fun _ => hR other⟩) ?_
  refine .mono silent_verdict (fun v w₁ same => ?_) fun _ _ h => h
  refine .mono ends_readResults ?_ fun _ _ h => ⟨h.1.trans same, h.2⟩
  rintro x w₂ ⟨suffixes, only, given⟩ r - prints w₃ only_prints last
  exact ⟨suffixes, prints, only, only_prints, by rw [last, given, same]⟩

end Session

end SolverBridge
