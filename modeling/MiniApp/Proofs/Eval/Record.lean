import MiniApp.Proofs.Eval.Declarations
import MiniApp.Proofs.Eval.Passage
import MiniApp.Proofs.Grammar.Parts

/-!
# The record of an application

All programs that are run in a session write to one record, and at whatever session they come to, the
record is made by some declarations of distinct fields, to which the sessions that follow add further
ones. So each field is written at most once in all the runs, and keeps what was written. A statement
that declares a field again fails, and the record is as it was when its value had been computed.

What is written into a field is decided in two places. The evaluator takes the configured version for
a property without an argument, whichever the property is, and the grammar sees to it that this is the
version of the web package.

## Main definitions

* `Property.Admits`: the values that may be written into a property
* `Session.timeline`: the sessions that runs of several programs come to
* `Run.Refuses`: statements that declare a field again

## Main results

* `Property.Writes.admits`: what a parsed declaration writes
* `Session.AtRest.pairwise_timeline`: later sessions add declarations to those of earlier ones
* `Session.run_record`: each field of the record is written at most once
-/

namespace MiniApp

open App (Declaration)

/-! ## What is written -/

/-- The text that shows a string or a number. -/
def Data.IsShown (value : Data) : Prop :=
  ∃ v : Value, (v.typeName = "string" ∨ v.typeName = "number") ∧
    ∃ text, v.display = .ok text ∧ value = .str text

/-- The values that may be written into a property. -/
def Property.Admits (cx : Context) (value : Data) : Property → Prop
  | .appName | .appIcon => ∃ text, value = .str text
  | .webPackage => value = .bool true
  | .webVersion => value.IsShown ∨ value = cx.settings.defaultWebVersion
  | .miniVersion => value.IsShown

/-- A derived declaration has the arguments that its property needs, so what it writes is admitted. -/
theorem Property.Writes.admits {cx : Context} {q : Property} {argument : Option Expr} {value : Data}
    {pos : Position} (h : q.Writes cx argument value)
    (hderived : Grammar.Derivable (.property pos q argument)) : q.Admits cx value := by
  obtain ⟨ts, hderives⟩ := hderived
  generalize hs : Stmt.property pos q argument = s at hderives
  cases hderives with
  | @property _ _ q' _ es _ _ hmin _ _ =>
    obtain ⟨-, rfl, rfl⟩ := Stmt.property.inj hs
    generalize hargument : es.head? = argument at h
    cases h with
    | flag hflag => subst hflag; rfl
    | default hne =>
      -- without an argument, the property is one that needs none
      obtain rfl := List.head?_eq_none_iff.mp hargument
      cases q with
      | webVersion => exact .inr rfl
      | webPackage => exact absurd rfl hne
      | appName | miniVersion | appIcon => cases hmin
    | @text e v text haccepted hdisplay =>
      cases q with
      | appName | appIcon => exact ⟨text, rfl⟩
      | webPackage => simp [accepted?] at haccepted
      | webVersion => exact .inl ⟨v, by simpa [accepted?] using haccepted, text, hdisplay, rfl⟩
      | miniVersion => exact ⟨v, by simpa [accepted?] using haccepted, text, hdisplay, rfl⟩
  | _ => cases hs

namespace App.Declaration

/-- A property is declared as a statement of the program says. -/
def StatedIn (cx : Context) (p : Program) : Declaration → Prop
  | .property q value pos => ∃ inLoop argument,
      p.Contains inLoop (.property pos q argument) ∧ q.Writes cx argument value
  | .body _ _ => True

/-- The value that is declared may be written into its field. -/
def IsAdmitted (cx : Context) : Declaration → Prop
  | .property q value _ => q.Admits cx value
  | .body _ _ => True

theorem StatedIn.isAdmitted {cx : Context} {p : Program} {d : Declaration} (h : d.StatedIn cx p)
    {allowance : Nat} {path source : String}
    (hparse : Program.parseWithin allowance path source = .ok p) : d.IsAdmitted cx := by
  cases d with
  | body _ _ => trivial
  | property q value pos =>
    obtain ⟨_, _, hcontains, hwrites⟩ := h
    obtain ⟨_, hoccurs⟩ := hcontains.occurs
    exact hwrites.admits (hoccurs.derived hparse)

end App.Declaration

/-! ## Later sessions -/

namespace Session

variable {cx : Context} {p : Program} {a : Surroundings} {s t u : Session} {l l' : List Entry}
variable {P Q : Declaration → Prop}

/-- The record of a later session is that of an earlier one with further declarations, each of which
is as `P` says. -/
def Declares (P : Declaration → Prop) (s t : Session) : Prop := s.app.Declares P t.app

theorem Declares.trans (h : Declares P s t) (h' : Declares P t u) : Declares P s u :=
  App.Declares.trans h h'

theorem Declares.of_app (h : t.app = s.app) : Declares P s t := by
  rw [Declares, h]
  exact .refl s.app

theorem Declares.of_setProperty {q : Property} {value : Data} {pos : Position}
    (hP : P (.property q value pos)) (h : s.app.setProperty q value pos = .ok t.app) :
    Declares P s t :=
  App.Declares.declare (d := .property q value pos) hP h

theorem Declares.of_openBody {style : String} {pos : Position} (hP : P (.body style pos))
    (h : s.app.openBody style pos = .ok t.app) : Declares P s t :=
  App.Declares.declare (d := .body style pos) hP h

theorem Declares.of_emit {id : Nat} {v : Value} (h : t.app = s.app.emit id v) : Declares P s t := by
  rw [Declares, h]
  exact .emit s.app id v

/-- Whatever is done in a session, the record is only added to. -/
theorem Evolves.declares {f : Option RunFailure} (h : s.Evolves cx f t) :
    Declares (fun _ => True) s t := by
  induction h with
  | refl s | fail s _ | refusedStep _ | refusedCall _ => exact .of_app rfl
  | change h =>
    cases h with
    | emitted _ _ => exact .of_emit rfl
    | propertySet hset => exact .of_setProperty trivial hset
    | _ => exact .of_app rfl
  | trans _ _ ih ih' => exact ih.trans ih'
  | call _ _ ih | scope _ ih => exact ih
  | @content s _ _ _ _ app _ hopen _ ih =>
    have hopened : Declares (fun _ => True) s { s with app } := .of_openBody trivial hopen
    exact hopened.trans ih

/-- Across whatever can happen in a run of a program, declarations of the program are added. -/
theorem lasting_declares : Lasting cx p (Declares (·.StatedIn cx p)) where
  trans := .trans
  mild h := .of_app h.app
  opened _ hopen := .of_openBody trivial hopen
  left _ := .of_app rfl
  emitted _ := .of_emit rfl
  written {_ _ q _ value pos _} hcontains hwrites hset := by
    have hstated : (Declaration.property q value pos).StatedIn cx p := ⟨_, _, hcontains, hwrites⟩
    exact .of_setProperty hstated hset

/-- The sessions that runs of programs come to, one run after another: those that the account of a run
tells of, then the one that the run ends with. -/
def timeline (cx : Context) (allowance : Nat) : List (String × Program) → Session → List Session
  | [], _ => []
  | (path, p) :: runs, s =>
    let t := (run cx allowance path p s).2
    (s.account cx allowance p).map Entry.session ++ t :: timeline cx allowance runs t

/-- Later sessions add declarations of the programs to those of earlier ones. -/
theorem AtRest.pairwise_timeline (hs : AtRest cx s) (allowance : Nat)
    (runs : List (String × Program)) : (s :: timeline cx allowance runs s).Pairwise
      (Declares fun d => ∃ r ∈ runs, d.StatedIn cx r.2) := by
  induction runs generalizing s with
  | nil => exact List.pairwise_singleton ..
  | cons r runs ih =>
    obtain ⟨path, p⟩ := r
    let t := (Session.run cx allowance path p s).2
    let P (d : Declaration) : Prop := ∃ r ∈ (path, p) :: runs, d.StatedIn cx r.2
    have htrans : ∀ s t u, Declares P s t → Declares P t u → Declares P s u :=
      fun _ _ _ => .trans
    have hrun := hs.passes (p := p) lasting_declares allowance path
    have hrow : (s :: (s.account cx allowance p).map Entry.session ++ [t]).Pairwise (Declares P) :=
      hrun.imp fun h => h.mono fun d hd => ⟨(path, p), List.mem_cons_self, hd⟩
    have hrest : (t :: timeline cx allowance runs t).Pairwise (Declares P) :=
      (ih (hs.run allowance path p)).imp fun h => h.mono fun d ⟨r, hr, hd⟩ =>
        ⟨r, List.mem_cons_of_mem _ hr, hd⟩
    exact pairwise_overlap htrans hrow hrest

theorem ComesTo.declares {names : List String} (h : ComesTo cx names s t) :
    Declares (fun _ => True) s t := by
  induction h with
  | here s => exact .of_app rfl
  | after h _ ih => exact h.declares.trans ih
  | call _ _ ih | scope _ ih => exact ih
  | @content _ s _ _ _ app _ hopen _ ih =>
    have hopened : Declares (fun _ => True) s { s with app } := .of_openBody trivial hopen
    exact hopened.trans ih

theorem AtRest.exists_records (h : AtRest cx s) : ∃ ds, s.app.Records ds := by
  induction h with
  | fresh => exact ⟨[], .empty⟩
  | @run s allowance path p _ ih =>
    obtain ⟨ds, hds⟩ := ih
    obtain ⟨f, hevolves, -⟩ := run_evolves cx allowance path p s
    obtain ⟨more, hmore, -⟩ := hevolves.declares ds hds
    exact ⟨ds ++ more, hmore⟩

theorem Reachable.exists_records (h : Reachable cx t) : ∃ ds, t.app.Records ds := by
  obtain ⟨s, names, hs, hcomes⟩ := h
  obtain ⟨ds, hds⟩ := hs.exists_records
  obtain ⟨more, hmore, -⟩ := hcomes.declares ds hds
  exact ⟨ds ++ more, hmore⟩

end Session

/-! ## Second declarations -/

namespace Run

/-- `Refuses x declaration first y t`: in the session `t`, the action `y` fails as `x` fails, and what
`x` gives it refuses to declare, since the field has been declared at the place `first`. -/
def Refuses {α : Type} (x : Run α) (declaration : α → Declaration) (first : Position)
    (y : Run Completion) (t : Session) : Prop :=
  match x t with
  | .ok v u => y t = .error (.rejected ((declaration v).duplicate first)) u
  | .error e u => y t = .error e u

variable {cx : Context} {t : Session} {ds : List Declaration} {first d : Declaration}

theorem declare_of_records (h : t.app.Records ds) (hfirst : first ∈ ds)
    (hfield : d.field = first.field) : t.app.declare d = .error (d.duplicate first.pos) := by
  have hlookup := h.lookup_eq hfirst
  rw [← hfield] at hlookup
  exact App.declare_of_declared hlookup

theorem setProperty_of_records {q : Property} (h : t.app.Records ds) (hfirst : first ∈ ds)
    (hfield : first.field = .property q) (value : Data) (pos : Position) :
    setProperty q value pos t =
      .error (.rejected ((Declaration.property q value pos).duplicate first.pos)) t := by
  have herror : t.app.setProperty q value pos = _ :=
    declare_of_records (d := .property q value pos) h hfirst hfield.symm
  rw [setProperty, herror]

theorem openBody_of_records (h : t.app.Records ds) (hfirst : first ∈ ds)
    (hfield : first.field = .body) (style : String) (pos : Position) :
    openBody style pos t = .error (.rejected ((Declaration.body style pos).duplicate first.pos)) t := by
  have herror : t.app.openBody style pos = _ :=
    declare_of_records (d := .body style pos) h hfirst hfield.symm
  rw [openBody, herror]

/-- What is refused wherever the field has been declared is refused after other actions. -/
theorem refuses_bind {α : Type} {x : Run α} {declaration : α → Declaration}
    {y : α → Run Completion} {P : RunFailure → Prop} (h : t.app.Records ds) (hfirst : first ∈ ds)
    (hx : Run.Evolves cx P t.inBody x)
    (hy : ∀ v (u : Session) ds', u.app.Records ds' → first ∈ ds' →
      y v u = .error (.rejected ((declaration v).duplicate first.pos)) u) :
    Refuses x declaration first.pos (x >>= y) t := by
  have hfollows := hx t rfl
  rw [Refuses, Run.bind_apply]
  cases hr : x t with
  | error e u => rfl
  | ok v u =>
    rw [hr] at hfollows
    cases hfollows with
    | ok hevolves =>
      -- the field is still declared where it was before its value was computed
      obtain ⟨more, hmore, -⟩ := hevolves.declares ds h
      exact hy v u (ds ++ more) hmore (List.mem_append_left _ hfirst)

/-- A statement is come to before its value is computed. -/
theorem refuses_reach {α : Type} {scope : Nat} {s : Stmt} {x : Run α}
    {declaration : α → Declaration} {y : α → Run Completion} (h : t.app.Records ds)
    (hfirst : first ∈ ds) (hx : Run.Evolves cx RunFailure.Any t.inBody x)
    (hy : ∀ v (u : Session) ds', u.app.Records ds' → first ∈ ds' →
      y v u = .error (.rejected ((declaration v).duplicate first.pos)) u) :
    Refuses (reach cx scope s >>= fun _ => x) declaration first.pos
      (reach cx scope s >>= fun _ => x >>= y) t := by
  rw [← bind_assoc]
  exact refuses_bind h hfirst ((Evolves.reach scope s).any.bind fun _ => hx) hy

variable (allowance scope : Nat) (pos : Position)

theorem refuses_property (h : t.app.Records ds) (hfirst : first ∈ ds) {q : Property}
    (hfield : first.field = .property q) (argument : Option Expr) :
    Refuses (reach cx scope (.property pos q argument) >>= fun _ =>
        propertyValue cx (evaluate cx allowance scope) q argument)
      (.property q · pos) first.pos
      (execute cx (allowance + 1) scope (.property pos q argument)) t :=
  refuses_reach h hfirst (.propertyValue (Evolves.execute_evaluate cx allowance).2 q argument)
    fun v u ds' hds' hfirst' => by
      rw [Run.bind_apply, setProperty_of_records hds' hfirst' hfield]

theorem refuses_body (h : t.app.Records ds) (hfirst : first ∈ ds) (hfield : first.field = .body)
    (reference : Expr) (content : List Stmt) :
    Refuses (reach cx scope (.body pos reference content) >>= fun _ =>
        style (evaluate cx allowance scope) scope reference)
      (.body · pos) first.pos
      (execute cx (allowance + 1) scope (.body pos reference content)) t :=
  refuses_reach h hfirst (.style (Evolves.execute_evaluate cx allowance).2 scope reference)
    fun style u ds' hds' hfirst' => by
      rw [Run.bind_apply, openBody_of_records hds' hfirst' hfield]

end Run

/-- The program has been parsed. -/
def Program.IsParsed (p : Program) : Prop :=
  ∃ allowance path source, parseWithin allowance path source = .ok p

namespace Session

/-- The record of an application is written once, field by field. What a list of declarations makes
of the empty record is decided by the first declaration of each field, and every later one is refused
with the place of the first. All sessions that runs of programs come to have records which are made
by declarations of distinct fields, and later ones add to those of earlier ones; if the programs have
been parsed, each property is given a value that it admits. In every session within a run, a
statement that declares a field again fails: as the computation of its value fails, or as a duplicate
of the first declaration, with the record as this computation has left it. -/
theorem run_record (cx : Context) :
    (∀ (ds : List Declaration) (f : App.Field), (({} : App).after ds).value f =
      match ds.find? (·.field = f) with
      | some first => some first.value
      | none => ({} : App).value f) ∧
    (∀ (ds : List Declaration) (d : Declaration), match ds.find? (·.field = d.field) with
      | some first => (({} : App).after ds).declare d = .error (d.duplicate first.pos)
      | none => ∃ b, (({} : App).after ds).declare d = .ok b ∧
          b.value = Function.update (({} : App).after ds).value d.field (some d.value)) ∧
    (∀ allowance runs, (({} : Session) :: timeline cx allowance runs {}).Pairwise fun t u =>
      ∃ ds more, t.app.Records ds ∧ u.app.Records (ds ++ more) ∧
        (∀ d ∈ ds, t.app.value d.field = some d.value ∧ u.app.value d.field = some d.value) ∧
        ((∀ r ∈ runs, r.2.IsParsed) → ∀ d ∈ ds ++ more, d.IsAdmitted cx)) ∧
    ∀ t, Reachable cx t → ∃ ds, t.app.Records ds ∧
      (∀ names u, ComesTo cx names t u → ∃ more, u.app.Records (ds ++ more)) ∧
      ∀ first ∈ ds, ∀ allowance scope pos,
        (∀ q argument, first.field = .property q →
          Run.Refuses (Run.reach cx scope (.property pos q argument) >>= fun _ =>
              Run.propertyValue cx (Run.evaluate cx allowance scope) q argument)
            (.property q · pos) first.pos
            (Run.execute cx (allowance + 1) scope (.property pos q argument)) t) ∧
        ∀ reference content, first.field = .body →
          Run.Refuses (Run.reach cx scope (.body pos reference content) >>= fun _ =>
              Run.style (Run.evaluate cx allowance scope) scope reference)
            (.body · pos) first.pos
            (Run.execute cx (allowance + 1) scope (.body pos reference content)) t := by
  refine ⟨fun ds f => App.value_after_empty, fun ds d => App.declare_after, fun allowance runs => ?_,
    fun t ht => ?_⟩
  · have hpairwise : (({} : Session) :: timeline cx allowance runs {}).Pairwise
        (Declares fun d => ∃ r ∈ runs, d.StatedIn cx r.2) :=
      AtRest.fresh.pairwise_timeline allowance runs
    refine hpairwise.imp_of_mem fun {t u} ht _ htu => ?_
    -- what the earlier session has declared is added to nothing
    have hdeclares : Declares (fun d => ∃ r ∈ runs, d.StatedIn cx r.2) {} t := by
      rcases List.mem_cons.mp ht with rfl | ht
      · exact .of_app rfl
      · exact List.rel_of_pairwise_cons hpairwise ht
    obtain ⟨ds, hds, hstated⟩ := hdeclares [] .empty
    obtain ⟨more, hmore, hstated'⟩ := htu ds hds
    refine ⟨ds, more, hds, hmore, fun d hd => ⟨hds.value_eq hd, ?_⟩, fun hparsed d hd => ?_⟩
    · exact hmore.value_eq (List.mem_append_left _ hd)
    · obtain ⟨r, hr, hd⟩ := (List.mem_append.mp hd).elim (hstated d) (hstated' d)
      obtain ⟨_, _, _, hparse⟩ := hparsed r hr
      exact hd.isAdmitted hparse
  · obtain ⟨ds, hds⟩ := ht.exists_records
    refine ⟨ds, hds, fun names u hcomes => ?_, fun first hfirst allowance scope pos =>
      ⟨fun q argument hfield => ?_, fun reference content hfield => ?_⟩⟩
    · obtain ⟨more, hmore, -⟩ := hcomes.declares ds hds
      exact ⟨more, hmore⟩
    · exact Run.refuses_property allowance scope pos hds hfirst hfield argument
    · exact Run.refuses_body allowance scope pos hds hfirst hfield reference content

/-- Two runs that declare the same property: the second one is refused, and what the first one wrote
stays. -/
theorem run_record_twice :
    let cx : Context := { settings := {}, patience := 5 }
    ∃ p q : Program, p.IsParsed ∧ q.IsParsed ∧
      let t := (run cx 20 "" p {}).2
      let u := (run cx 20 "" q t).2
      (∃ ds more, t.app.Records ds ∧ u.app.Records (ds ++ more) ∧
        (∀ d ∈ ds, t.app.value d.field = some d.value ∧ u.app.value d.field = some d.value) ∧
        ∀ d ∈ ds ++ more, d.IsAdmitted cx) ∧
      ∃ first : Declaration, first.field = .property .miniVersion ∧ first.pos = ⟨1, 21⟩ ∧
        let v := opened { t with trace := #[], visits := #[] }
        Reachable cx v ∧ ∀ scope argument,
          Run.Refuses (Run.reach cx scope (.property ⟨1, 1⟩ .miniVersion argument) >>= fun _ =>
              Run.propertyValue cx (Run.evaluate cx 18 scope) .miniVersion argument)
            (.property .miniVersion · ⟨1, 1⟩) first.pos
            (Run.execute cx 19 scope (.property ⟨1, 1⟩ .miniVersion argument)) v := by
  intro cx
  obtain ⟨p, q, hp, hq, hdeclared⟩ : ∃ p q : Program,
      Program.parseWithin 20 "" "web_mini_version(); mini_version(\"1\");" = .ok p ∧
      Program.parseWithin 20 "" "mini_version(2);" = .ok q ∧
      (run cx 20 "" p {}).2.app.declared.lookup "mini_version" = some ⟨1, 21⟩ := by
    refine ⟨⟨⟨1, 1⟩, [.property ⟨1, 1⟩ .webVersion none,
        .property ⟨1, 21⟩ .miniVersion (some (.string ⟨1, 34⟩ "1"))]⟩,
      ⟨⟨1, 1⟩, [.property ⟨1, 1⟩ .miniVersion (some (.number ⟨1, 14⟩ (.int 2) "2"))]⟩,
      ?_, ?_, ?_⟩ <;> cbv
  have hp : p.IsParsed := ⟨_, _, _, hp⟩
  have hq : q.IsParsed := ⟨_, _, _, hq⟩
  obtain ⟨-, -, htimeline, hreachable⟩ := run_record cx
  refine ⟨p, q, hp, hq, ?_, ?_⟩
  · -- the sessions at the ends of the two runs
    have hpairwise := htimeline 20 [("", p), ("", q)]
    obtain ⟨-, hends, -⟩ := List.pairwise_append.mp (List.pairwise_cons.mp hpairwise).2
    obtain ⟨ds, more, hds, hmore, hkept, hadmitted⟩ :=
      List.rel_of_pairwise_cons hends (List.mem_append_right _ (List.mem_singleton_self _))
    exact ⟨ds, more, hds, hmore, hkept, hadmitted (by simp [hp, hq])⟩
  · have hrest : AtRest cx (run cx 20 "" p {}).2 := .run 20 "" p .fresh
    have hv : Reachable cx (opened { (run cx 20 "" p {}).2 with trace := #[], visits := #[] }) :=
      ⟨_, [], hrest, .here _⟩
    obtain ⟨ds, hds, -, hrefuses⟩ := hreachable _ hv
    have hlookup := hds.lookup (.property .miniVersion)
    obtain ⟨first, hfirst, hpos⟩ := Option.map_eq_some_iff.mp (hlookup.symm.trans hdeclared)
    have hfield : first.field = .property .miniVersion := by simpa using List.find?_some hfirst
    refine ⟨first, hfield, hpos, hv, fun scope argument => ?_⟩
    exact (hrefuses first (List.mem_of_find?_eq_some hfirst) 18 scope ⟨1, 1⟩).1 _ argument hfield

end Session

end MiniApp
