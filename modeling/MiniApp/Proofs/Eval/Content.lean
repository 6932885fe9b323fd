import Mathlib
import MiniApp.Proofs.Eval.Passage

/-!
# Content is a log of the body section

Content is only ever appended, and only while the body section is being executed: one value for every
content call and for every text that stands as a statement, in the order in which they are completed,
wherever they stand. Once the section has been executed it is *closed*. It was opened when there was
none, so none is ever opened again, and the content stays as it is.

## Main definitions

* `Session.content`: the content of the body section
* `Session.Appends`: content that is appended as an account tells
* `Session.Closed`: sessions whose body section has been executed
* `Session.Logs`: accounts that tell of all content

## Main results

* `Session.Evolves.shut`: a closed section stays as it is
* `Session.AtRest.logs`: accounts of runs tell of all content
* `Session.run_content`: content is a log of the body section
-/

namespace MiniApp

namespace Ending

theorem due_round (f : Ending) : f.round.due = f.due := by cases f <;> rfl

theorem due_call (f : Ending) : f.call.due = f.due := by cases f <;> rfl

end Ending

namespace Session

/-- The content of the body section. -/
def content (s : Session) : List Value :=
  match s.app.body with
  | some x => x.content.toList
  | none => []

/-- Content grows from one entry of an account to the next by what the entry tells of, and by nothing
after the last one. -/
def Appends : List Value → List Entry → List Value → Prop
  | c, [], d => d = c
  | c, m :: l, d => m.session.content = c ++ m.emission ∧ Appends m.session.content l d

/-- The body section has been executed: there is one, and it is not being executed. -/
def Closed (s : Session) : Prop := s.app.body.isSome = true ∧ s.inBody = false

/-- If the body section is closed, it is closed later on, and it is the same then. -/
def Shut (s t : Session) : Prop := s.Closed → t.Closed ∧ t.app.body = s.app.body

/-- An account that tells of all content. -/
structure Logs (l : List Entry) (s t : Session) : Prop where
  /-- Content grows exactly as the entries tell, in their order. -/
  appends : Appends s.content l t.content
  /-- The entries know whether the body section is being executed. -/
  around : ∀ m ∈ l, m.session.inBody = m.around.inBody
  /-- Content is emitted only while the body section is being executed. -/
  emission : ∀ m ∈ l, m.emission ≠ [] → m.around.inBody = true
  /-- Once the body section is closed it stays as it is: from the beginning, and from each entry, to
  any later entry and to the end. -/
  shut : Passes Shut s l t

variable {cx : Context} {p : Program} {a : Surroundings} {s t u : Session} {l l' : List Entry}
variable {f : Option RunFailure} {names : List String}

/-! ## Content that is appended -/

theorem Appends.append {c d e : List Value} (h : Appends c l d) (h' : Appends d l' e) :
    Appends c (l ++ l') e := by
  induction l generalizing c with
  | nil =>
    obtain rfl : d = c := h
    exact h'
  | cons m l ih => exact ⟨h.1, ih h.2⟩

theorem content_of_app (h : t.app.body = s.app.body) : t.content = s.content := by
  rw [content, content, h]

/-- A section is opened only where there was none, so there was no content. -/
theorem content_of_openBody {style : String} {pos : Position} {app : App} (hs : s.app.Coherent)
    (h : s.app.openBody style pos = .ok app) : s.app.body = none ∧ s.content = [] := by
  obtain ⟨hnew, -, -, -⟩ := App.openBody_eq_ok h
  have hnone : s.app.body = none := by
    rw [← Option.not_isSome_iff_eq_none]
    exact fun hsome => hnew (hs.mp hsome)
  exact ⟨hnone, by rw [content, hnone]⟩

/-- What is emitted while the application's own section is being executed becomes its content. -/
theorem content_of_emit {id : Nat} (howned : s.Owned) (hid : s.active = some id) (v : Value) :
    content { s with app := s.app.emit id v } = s.content ++ [v] := by
  obtain ⟨x, hx, rfl⟩ := howned id hid
  have hbody : (s.app.emit x.id v).body = some { x with content := x.content.push v } := by
    rw [App.emit, Option.mem_def.mp hx]
    simp
  rw [content, content, hbody, Option.mem_def.mp hx]
  exact Array.toList_push

/-- Whatever an account tells of, the section that is being executed stays the application's own. -/
theorem Recounts.owned {f : Ending} (hs : s.app.Coherent) (howned : s.Owned)
    (h : s.Recounts cx p a l f t) : t.Owned := by
  induction h with
  | quiet hmild | failed hmild _ => exact howned.extends (hmild.app ▸ .refl _) hmild.active
  | trans h _ ih ih' => exact ih' (h.coherent hs) (ih hs howned)
  | leave _ hmild ih => exact (ih hs howned).extends (hmild.app ▸ .refl _) hmild.active
  | round _ ih | call _ ih | told _ _ _ _ ih => exact ih hs howned
  | content hopen _ _ _ =>
    -- there was no section, so none was being executed, and so it is again
    intro id hid
    obtain ⟨x, hx, -⟩ := howned id hid
    exact nomatch (content_of_openBody hs hopen).1.symm.trans hx
  | jumped _ _ => exact howned
  | emitted _ => exact howned.extends (App.extends_emit _ _ _) rfl
  | written _ _ hset => exact howned.extends (App.extends_setProperty hset) rfl

theorem emission_of_jump {stmt : Stmt} {keyword : String} {pos : Position}
    (h : stmt.jump? = some (keyword, pos)) : (Entry.mk (.executed stmt) a s).emission = [] := by
  cases stmt <;> first | rfl | cases h

/-- The content that has been appended is what the entries tell of, and what is due. -/
theorem Recounts.appends {f : Ending} (hs : s.app.Coherent) (howned : s.Owned)
    (h : s.Recounts cx p a l f t) : ∃ c, Appends s.content l c ∧ t.content = c ++ f.due := by
  induction h with
  | quiet hmild | failed hmild _ =>
    rw [content_of_app (congrArg App.body hmild.app)]
    exact ⟨_, rfl, (List.append_nil _).symm⟩
  | @trans a s t u l l' f h _ ih ih' =>
    obtain ⟨c, happends, hcontent⟩ := ih hs howned
    obtain ⟨d, happends', hcontent'⟩ := ih' (h.coherent hs) (h.owned hs howned)
    -- nothing is due in between, so the second part starts from all the first has emitted
    obtain rfl : t.content = c := hcontent.trans (List.append_nil c)
    exact ⟨d, happends.append happends', hcontent'⟩
  | leave _ hmild ih =>
    rw [content_of_app (congrArg App.body hmild.app)]
    exact ih hs howned
  | @round a s t l f _ ih =>
    rw [f.due_round]
    exact ih hs howned
  | @call a s t l f _ ih =>
    rw [f.due_call]
    exact ih hs howned
  | @content a s t l f style pos app hopen _ _ ih =>
    -- a section can be opened only while there is no content, and it starts out empty
    obtain ⟨-, hnone⟩ := content_of_openBody hs hopen
    obtain ⟨c, happends, hcontent⟩ := ih (.openBody hopen) (owned_of_openBody hopen)
    obtain ⟨-, -, hbody, -⟩ := App.openBody_eq_ok hopen
    have hempty : Session.content { s with app, active := some s.app.nextSection } = [] := by
      rw [Session.content, hbody]
    rw [hempty] at happends
    rw [hnone]
    exact ⟨c, happends, hcontent⟩
  | @told a s t l f deed _ hemission _ _ ih =>
    obtain ⟨c, happends, hcontent⟩ := ih hs howned
    have hdue : f.told.due = [] := by cases f <;> rfl
    rw [← hemission] at hcontent
    rw [hdue]
    exact ⟨t.content, happends.append ⟨hcontent, rfl⟩, (List.append_nil _).symm⟩
  | jumped hjump _ =>
    exact ⟨_, ⟨by rw [emission_of_jump hjump, List.append_nil], rfl⟩, (List.append_nil _).symm⟩
  | emitted hactive => exact ⟨_, rfl, content_of_emit howned hactive _⟩
  | written _ _ hset =>
    obtain ⟨-, -, hbody, -⟩ := App.setProperty_eq_ok hset
    exact ⟨_, rfl, (content_of_app hbody).trans (List.append_nil _).symm⟩

/-- Content is emitted only while the body section is being executed, and the entries know whether
it is. -/
theorem Recounts.emission {f : Ending} (hs : s.inBody = a.inBody) (h : s.Recounts cx p a l f t) :
    (f.due ≠ [] → a.inBody = true) ∧ ∀ m ∈ l,
      m.session.inBody = m.around.inBody ∧ (m.emission ≠ [] → m.around.inBody = true) := by
  have hnil : ∀ m ∈ ([] : List Entry), m.session.inBody = m.around.inBody ∧
      (m.emission ≠ [] → m.around.inBody = true) := fun _ hm => absurd hm List.not_mem_nil
  induction h with
  | quiet _ | failed _ _ | written _ _ _ => exact ⟨fun hdue => absurd rfl hdue, hnil⟩
  | trans h _ ih ih' =>
    obtain ⟨hdue, hrest⟩ := ih' (h.inBody_eq.trans hs)
    exact ⟨hdue, fun m hm => (List.mem_append.mp hm).elim ((ih hs).2 m) (hrest m)⟩
  | leave _ _ ih => exact ih hs
  | @round a s t l f _ ih =>
    rw [f.due_round]
    exact ih hs
  | @call a s t l f _ ih =>
    rw [f.due_call]
    exact ih hs
  | content _ hdue _ ih => exact ⟨fun h => absurd hdue h, (ih rfl).2⟩
  | @told a s t l f deed h hemission _ _ ih =>
    refine ⟨fun hdue => absurd (by cases f <;> rfl) hdue, fun m hm => ?_⟩
    rcases List.mem_append.mp hm with hm | hm
    · exact (ih hs).2 m hm
    · obtain rfl := List.mem_singleton.mp hm
      exact ⟨h.inBody_eq.trans hs, fun hne => (ih hs).1 (hemission ▸ hne)⟩
  | @jumped a s stmt keyword pos hjump _ =>
    refine ⟨fun hdue => absurd rfl hdue, fun m hm => ?_⟩
    obtain rfl := List.mem_singleton.mp hm
    exact ⟨hs, fun hne => absurd (emission_of_jump hjump) hne⟩
  | emitted hactive => exact ⟨fun _ => hs.symm.trans (Option.isSome_of_mem hactive), hnil⟩

/-! ## Closed sections -/

theorem Shut.refl (s : Session) : s.Shut s := fun h => ⟨h, rfl⟩

theorem Shut.trans (h : s.Shut t) (h' : t.Shut u) : s.Shut u := fun hs =>
  ⟨(h' (h hs).1).1, (h' (h hs).1).2.trans (h hs).2⟩

theorem Shut.of_eq (hbody : t.app.body = s.app.body) (hactive : t.active = s.active) : s.Shut t :=
  fun h => ⟨⟨hbody ▸ h.1, (congrArg Option.isSome hactive).trans h.2⟩, hbody⟩

theorem Mild.shut (h : s.Mild t) : s.Shut t := .of_eq (congrArg App.body h.app) h.active

/-- Nothing is claimed of a section that is being executed. -/
theorem Shut.of_inBody (h : s.inBody = true) : s.Shut t := fun hs => by
  rw [hs.2] at h
  cases h

/-- Nothing is claimed if there is no section. -/
theorem Shut.of_openBody {style : String} {pos : Position} {app : App} (hs : s.app.Coherent)
    (h : s.app.openBody style pos = .ok app) : s.Shut t := fun hclosed => by
  have hsome := hclosed.1
  rw [(content_of_openBody hs h).1] at hsome
  cases hsome

theorem Change.shut (h : s.Change cx t) : s.Shut t := by
  cases h with
  | emitted _ hactive => exact .of_inBody (Option.isSome_of_mem hactive)
  | propertySet hset =>
    obtain ⟨-, -, hbody, -⟩ := App.setProperty_eq_ok hset
    exact .of_eq hbody rfl
  | _ => exact .of_eq rfl rfl

/-- A closed section stays as it is, whatever is done. -/
theorem Evolves.shut (hs : s.app.Coherent) (h : s.Evolves cx f t) : s.Shut t := by
  induction h with
  | refl _ | fail _ _ => exact .refl _
  | refusedStep _ | refusedCall _ => exact .of_eq rfl rfl
  | change h => exact h.shut
  | trans h _ ih ih' => exact (ih hs).trans (ih' (h.extends hs).2)
  | call _ _ ih | scope _ ih => exact ih hs
  | content hopen _ _ => exact .of_openBody hs hopen

theorem ComesTo.shut (hs : s.app.Coherent) (h : ComesTo cx names s t) : s.Shut t := by
  induction h with
  | here _ => exact .refl _
  | after h _ ih => exact (h.shut hs).trans (ih (h.extends hs).2)
  | call _ _ ih | scope _ ih => exact ih hs
  | content hopen _ _ => exact .of_openBody hs hopen

/-- A closed section stays as it is across whatever can happen in a run. -/
theorem lasting_shut : Lasting cx p Shut where
  trans := Shut.trans
  mild := Mild.shut
  opened := .of_openBody
  left := .of_inBody
  emitted hactive := .of_inBody (Option.isSome_of_mem hactive)
  written _ _ hset := by
    obtain ⟨-, -, hbody, -⟩ := App.setProperty_eq_ok hset
    exact .of_eq hbody rfl

/-! ## Runs -/

/-- The account of a run tells of all content. -/
theorem AtRest.logs (hs : AtRest cx s) (allowance : Nat) (path : String) (p : Program) :
    Logs (s.account cx allowance p) s (Session.run cx allowance path p s).2 := by
  obtain ⟨f, hrecounts, -⟩ := run_recounts cx allowance path p hs.inBody_eq
  have hcoherent : (opened { s with trace := #[], visits := #[] }).app.Coherent := hs.coherent
  obtain ⟨c, happends, hcontent⟩ := hrecounts.appends hcoherent hs.owned
  obtain ⟨-, hemission⟩ := hrecounts.emission hs.inBody_eq
  have hdue : (f.elim Ending.done Ending.failed).due = [] := by cases f <;> rfl
  rw [hdue, List.append_nil] at hcontent
  exact
    { appends := hcontent ▸ happends
      around := fun m hm => (hemission m hm).1
      emission := fun m hm => (hemission m hm).2
      shut := hs.passes lasting_shut allowance path }

/-- While a body section is being executed there is one. -/
theorem Owned.isSome_body (h : s.Owned) (hs : s.inBody = true) : s.app.body.isSome = true := by
  obtain ⟨id, hid⟩ := Option.isSome_iff_exists.mp hs
  obtain ⟨x, hx, -⟩ := h id hid
  exact Option.isSome_of_mem hx

/-- Outside of the body section a content call is refused. -/
theorem evaluate_content_of_not_inBody (ht : t.inBody = false) (allowance scope : Nat)
    (pos : Position) (arguments : List Expr) :
    ∃ visits, Run.evaluate cx (allowance + 1) scope (.content pos arguments) t =
      .error (.rejected (.located pos .contentCall
        "Call(...) can only be used inside a body section")) { t with visits } := by
  obtain ⟨visits, hvisit⟩ : ∃ visits,
      Run.visit cx scope (.expr (.content pos arguments)) t = .ok () { t with visits } := by
    change ∃ visits, EStateM.Result.ok () (if cx.recording then _ else _) = _
    split
    · exact ⟨_, rfl⟩
    · exact ⟨t.visits, rfl⟩
  refine ⟨visits, ?_⟩
  rw [Run.evaluate.eq_def]
  dsimp only
  rw [Run.bind_apply, hvisit]
  change (if !t.inBody then _ else _ : Run Value) { t with visits } = _
  rw [ht]
  rfl

/-- Content is a log of the body section. While a section is being executed it is the one of the
application. Every run, after any runs of other programs, appends to the content what its account
tells and nothing else. The statement that opens the section leaves it closed, however it ends, and
a section that there is between runs is closed. From then on it stays as it is, in all sessions that
the run comes to and whatever is executed or evaluated, and content calls are refused. -/
theorem run_content (cx : Context) :
    (∀ t, Reachable cx t → t.Owned ∧ (t.inBody = true → t.app.body.isSome = true)) ∧
    (∀ s, AtRest cx s → (s.app.body.isSome = true → s.Closed) ∧
      ∀ allowance path p, Logs (s.account cx allowance p) s (Session.run cx allowance path p s).2) ∧
    (∀ t, Reachable cx t → t.app.body = none → ∀ allowance scope stmt,
      let u := Run.sessionAfter (Run.execute cx allowance scope stmt t)
      u.app.body.isSome = true → u.Closed) ∧
    ∀ t, Reachable cx t → t.Closed →
      (∀ names u, ComesTo cx names t u → u.Closed ∧ u.app.body = t.app.body) ∧
      (∀ allowance scope stmt, let u := Run.sessionAfter (Run.execute cx allowance scope stmt t)
        u.Closed ∧ u.app.body = t.app.body) ∧
      (∀ allowance scope e, let u := Run.sessionAfter (Run.evaluate cx allowance scope e t)
        u.Closed ∧ u.app.body = t.app.body) ∧
      ∀ allowance scope pos arguments, ∃ visits,
        Run.evaluate cx (allowance + 1) scope (.content pos arguments) t =
          .error (.rejected (.located pos .contentCall
            "Call(...) can only be used inside a body section")) { t with visits } := by
  refine ⟨fun t ht => ⟨ht.owned, ht.owned.isSome_body⟩, fun s hs => ⟨fun hbody => ⟨hbody, hs.inBody_eq⟩, hs.logs⟩,
    fun t ht hnone allowance scope stmt hsome => ⟨hsome, ?_⟩, fun t ht hclosed =>
      ⟨fun names u hcomes => hcomes.shut ht.coherent hclosed, fun allowance scope stmt => ?_,
        fun allowance scope e => ?_, evaluate_content_of_not_inBody hclosed.2⟩⟩
  · have hfollows := (Run.Evolves.execute_evaluate cx allowance).1 t.inBody scope stmt t rfl
    obtain ⟨f, hevolves⟩ := hfollows.exists_evolves
    -- no section was being executed before, since there was none
    refine hevolves.inBody_eq.trans (Bool.eq_false_iff.mpr fun hbody => ?_)
    have hsome' := ht.owned.isSome_body hbody
    rw [hnone] at hsome'
    cases hsome'
  · have hfollows := (Run.Evolves.execute_evaluate cx allowance).1 t.inBody scope stmt t rfl
    obtain ⟨f, hevolves⟩ := hfollows.exists_evolves
    exact hevolves.shut ht.coherent hclosed
  · have hfollows := (Run.Evolves.execute_evaluate cx allowance).2 t.inBody scope e t rfl
    obtain ⟨f, hevolves⟩ := hfollows.exists_evolves
    exact hevolves.shut ht.coherent hclosed

/-- A function that makes a content call, called in the body section: its value stands before the
text behind the call. Afterwards the section is closed, and a content call in a second run is
refused. -/
theorem run_content_call :
    let cx : Context := { settings := {}, patience := 5 }
    ∃ p q, let t := (Session.run cx 20 "" p {}).2
      (AtRest cx {} ∧ Logs (Session.account cx 20 p {}) {} t ∧
        t.content = [.bool true, .str "a"] ∧ t.Closed) ∧
      (Session.run cx 20 "" q t).1 = some (.rejected (.located ⟨1, 1⟩ .contentCall
        "Call(...) can only be used inside a body section")) ∧
      (Session.run cx 20 "" q t).2.app.body = t.app.body := by
  intro cx
  obtain ⟨p, q, hcontent, hsome, hrefused⟩ : ∃ p q, let t := (Session.run cx 20 "" p {}).2
      t.content = [.bool true, .str "a"] ∧ t.app.body.isSome = true ∧
      (Session.run cx 20 "" q t).1 = some (.rejected (.located ⟨1, 1⟩ .contentCall
        "Call(...) can only be used inside a body section")) := by
    refine ⟨⟨⟨1, 1⟩, [.func ⟨1, 1⟩ "f" [] (.mk ⟨1, 10⟩ [
        .return ⟨1, 12⟩ (some (.content ⟨1, 19⟩ [.bool ⟨1, 24⟩ true]))]),
      .body ⟨2, 1⟩ (.ident ⟨2, 14⟩ "dark") [
        .expr ⟨3, 1⟩ (.call ⟨3, 1⟩ (.ident ⟨3, 1⟩ "f") []), .expr ⟨4, 1⟩ (.string ⟨4, 1⟩ "a")]]⟩,
      ⟨⟨1, 1⟩, [.expr ⟨1, 1⟩ (.content ⟨1, 1⟩ [.null ⟨1, 6⟩])]⟩, ?_, ?_, ?_⟩ <;> cbv
  obtain ⟨-, hrests, -, -⟩ := run_content cx
  have hrest : AtRest cx (Session.run cx 20 "" p {}).2 := .run 20 "" p .fresh
  have hclosed := (hrests _ hrest).1 hsome
  refine ⟨p, q, ⟨.fresh, (hrests {} .fresh).2 20 "" p, hcontent, hclosed⟩, hrefused, ?_⟩
  exact (((hrests _ hrest).2 20 "" q).shut.ends hclosed).2

end Session

end MiniApp
