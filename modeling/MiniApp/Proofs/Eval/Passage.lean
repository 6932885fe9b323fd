import MiniApp.Proofs.Eval.Recount

/-!
# From one moment of a run to a later one

Some things are settled at one moment of a run and then last: that the body section is closed, or what
has been declared. Such a thing is a relation from an earlier session to a later one. If it is passed
on, and holds across each of the few things that can happen to a session, it holds from any session
that the account of a run tells of to any later one.

## Main definitions

* `Session.Lasting`: relations that hold across whatever can happen
* `Session.Passes`: a relation that holds from each session of an account to all later ones

## Main results

* `Session.Recounts.passes`: lasting relations hold along accounts
* `Session.AtRest.passes`: lasting relations hold along runs
-/

namespace MiniApp

namespace Session

variable {cx : Context} {p : Program} {a : Surroundings} {s t u : Session} {l l' : List Entry}
variable {R : Session → Session → Prop}

/-- A relation from earlier to later sessions that holds across whatever can happen in a run of the
program. -/
structure Lasting (cx : Context) (p : Program) (R : Session → Session → Prop) : Prop where
  trans {s t u : Session} : R s t → R t u → R s u
  mild {s t : Session} : s.Mild t → R s t
  opened {s : Session} {style : String} {pos : Position} {app : App} : s.app.Coherent →
    s.app.openBody style pos = .ok app → R s { s with app, active := some s.app.nextSection }
  left {s : Session} {active : Option Nat} : s.inBody = true → R s { s with active }
  emitted {s : Session} {id : Nat} {v : Value} : s.active = some id →
    R s { s with app := s.app.emit id v, trace := s.trace.push (.emitted v) }
  written {s : Session} {inLoop : Bool} {q : Property} {argument : Option Expr} {value : Data}
    {pos : Position} {app : App} : p.Contains inLoop (.property pos q argument) →
    q.Writes cx argument value → s.app.setProperty q value pos = .ok app →
    R s { s with app, trace := s.trace.push (.propertySet q.field value) }

/-- From one session to another one, an account tells of sessions, and from each of all these
sessions to every later one the relation holds. -/
def Passes (R : Session → Session → Prop) (s : Session) (l : List Entry) (t : Session) : Prop :=
  (s :: l.map Entry.session ++ [t]).Pairwise R

/-- Two rows of which one begins where the other one ends make one row. -/
theorem pairwise_overlap {ss ts : List Session} (htrans : ∀ s t u, R s t → R t u → R s u)
    (h : (ss ++ [s]).Pairwise R) (h' : (s :: ts).Pairwise R) : (ss ++ s :: ts).Pairwise R := by
  obtain ⟨hss, -, hends⟩ := List.pairwise_append.mp h
  refine List.pairwise_append.mpr ⟨hss, h', fun t ht u hu => ?_⟩
  have hts := hends t ht s (List.mem_singleton_self s)
  rcases List.mem_cons.mp hu with rfl | hu
  · exact hts
  · exact htrans t s u hts (List.rel_of_pairwise_cons h' hu)

namespace Passes

theorem pair (h : R s t) : Passes R s [] t := List.pairwise_pair.mpr h

/-- The relation holds from the beginning to the end. -/
theorem ends (h : Passes R s l t) : R s t :=
  List.rel_of_pairwise_cons h (List.mem_append_right _ (List.mem_singleton_self t))

variable (hR : Lasting cx p R)
include hR

theorem refl (s : Session) : Passes R s [] s := .pair (hR.mild (.refl s))

theorem trans (h : Passes R s l t) (h' : Passes R t l' u) : Passes R s (l ++ l') u := by
  have htrans : ∀ s t u, R s t → R t u → R s u := fun _ _ _ => hR.trans
  have hrow : (s :: l.map Entry.session ++ [t]).Pairwise R := h
  have hrest : (t :: (l'.map Entry.session ++ [u])).Pairwise R := h'
  have hboth : (s :: l.map Entry.session ++ t :: (l'.map Entry.session ++ [u])).Pairwise R :=
    pairwise_overlap htrans hrow hrest
  -- the session in between is left out again
  refine hboth.sublist ?_
  simp

theorem told (h : Passes R s l t) (deed : Deed) (a : Surroundings) :
    Passes R s (l ++ [⟨deed, a, t⟩]) t := by
  have hself : R t t := hR.mild (.refl t)
  have hentry : Passes R t [⟨deed, a, t⟩] t := by simp [Passes, hself]
  exact h.trans hR hentry

end Passes

/-- The body section is declared if and only if there is one, throughout an account. -/
theorem Recounts.coherent {f : Ending} (hs : s.app.Coherent) (h : s.Recounts cx p a l f t) :
    t.app.Coherent := by
  induction h with
  | quiet hmild | failed hmild _ => exact hmild.app ▸ hs
  | trans _ _ ih ih' => exact ih' (ih hs)
  | leave _ hmild ih => exact hmild.app ▸ ih hs
  | round _ ih | call _ ih | told _ _ _ _ ih => exact ih hs
  | content hopen _ _ ih => exact ih (.openBody hopen)
  | jumped _ _ => exact hs
  | emitted _ => exact hs.emit _ _
  | written _ _ hset => exact hs.setProperty hset

/-- Lasting relations hold along accounts. -/
theorem Recounts.passes {f : Ending} (hR : Lasting cx p R) (hs : s.app.Coherent)
    (h : s.Recounts cx p a l f t) : Passes R s l t := by
  induction h with
  | quiet hmild | failed hmild _ => exact .pair (hR.mild hmild)
  | trans h _ ih ih' => exact (ih hs).trans hR (ih' (h.coherent hs))
  | leave _ hmild ih => simpa using (ih hs).trans hR (.pair (hR.mild hmild))
  | round _ ih | call _ ih => exact ih hs
  | @content a s t l f style pos app hopen _ h ih =>
    have hopened : Passes R s [] { s with app, active := some s.app.nextSection } :=
      .pair (hR.opened hs hopen)
    -- the section is being executed up to the point where it is left
    have hleft : Passes R t [] { t with active := s.active } := .pair (hR.left h.inBody_eq)
    simpa using (hopened.trans hR (ih (.openBody hopen))).trans hR hleft
  | told _ _ _ _ ih => exact (ih hs).told hR _ _
  | @jumped a s stmt => exact (Passes.refl hR s).told hR (.executed stmt) a
  | emitted hactive => exact .pair (hR.emitted hactive)
  | written hcontains hwrites hset => exact .pair (hR.written hcontains hwrites hset)

/-- Lasting relations hold along runs. -/
theorem AtRest.passes (hR : Lasting cx p R) (hs : AtRest cx s) (allowance : Nat) (path : String) :
    Passes R s (s.account cx allowance p) (Session.run cx allowance path p s).2 := by
  obtain ⟨f, hrecounts, -⟩ := run_recounts cx allowance path p hs.inBody_eq
  have hopened : s.Mild (opened { s with trace := #[], visits := #[] }) := ⟨rfl, rfl⟩
  exact (Passes.pair (hR.mild hopened)).trans hR (hrecounts.passes hR hs.coherent)

end Session

end MiniApp
