import MiniApp.Proofs.Arena.Values
import MiniApp.Proofs.Eval.Account
import MiniApp.Proofs.Eval.Quiet

/-!
# Where functions come from

When the declaration of a function has been executed, a function has been made, and the frame of the
declaration binds its name to it. It is captured for that, so it stays, and the name cannot be bound
there again, even when the frames around it have been reclaimed and their indices are used again. So
whatever function turns up later can be traced back to the entry that tells that it was made, and no
two entries tell of the same function.

## Main definitions

* `Entry.Makes`: the function that an entry tells has been made
* `Value.Comes`: values that are no functions, or functions that entries have made
* `Entry.Follows`, `Orderly`: accounts in which functions have been made when they turn up
* `Session.Traced`: sessions whose functions can be traced back to an account

## Main results

* `Session.Traced.declared`: a function that is declared is a new one
* `Session.Traced.advance`, `Session.Traced.opened`: other changes of sessions
-/

namespace MiniApp

/-! ## Functions in accounts -/

/-- Declarations of functions that have been executed. -/
def Deed.IsFunction : Deed → Prop
  | .executed s => (Node.stmt s).IsFunction
  | .evaluated .. => False

/-- The entry tells that a function has been made: its declaration has been executed, it is the last
function that got an identity, and the frame of the declaration binds its name to it. -/
structure Entry.Makes (m : Entry) (f : Closure) : Prop where
  deed : m.deed = .executed (.func f.pos f.name f.parameters f.body)
  latest : m.session.nextId = f.id + 1
  bound : ∃ g, m.session.arena.frame? f.frame = some g ∧
    (f.name, ⟨.closure f, .func, f.pos⟩) ∈ g.bindings

theorem Entry.Makes.isFunction {m : Entry} {f : Closure} (h : m.Makes f) : m.deed.IsFunction := by
  rw [h.deed]
  trivial

/-- The value is no function, or one of the builtin functions given, or an entry tells that it has
been made. -/
def Value.Comes (bs : List Builtin) (l : List Entry) : Value → Prop
  | .closure f => ∃ m ∈ l, m.Makes f
  | .builtin b => b ∈ bs
  | _ => True

namespace Value

variable {bs bs' : List Builtin} {l l' : List Entry} {v : Value}

theorem Comes.mono (h : v.Comes bs l) (hbs : bs ⊆ bs') (hl : l ⊆ l') : v.Comes bs' l' := by
  cases v with
  | closure f =>
    obtain ⟨m, hm, hf⟩ := h
    exact ⟨m, hl hm, hf⟩
  | builtin b => exact hbs h
  | null | bool _ | number _ | str _ => trivial

theorem Comes.later (h : v.Comes bs l) (hl : l ⊆ l') : v.Comes bs l' :=
  h.mono (List.Subset.refl bs) hl

theorem IsData.comes (h : v.IsData) : v.Comes bs l := by
  cases v with
  | closure _ | builtin _ => exact h.elim
  | null | bool _ | number _ | str _ => trivial

end Value

/-- The entry fits to those before it. A value that it tells of comes from them. If it tells that a
function has been declared, it has made one, which is neither one that was made before nor bound to
the same name in the same frame. -/
structure Entry.Follows (bs : List Builtin) (l : List Entry) (m : Entry) : Prop where
  evaluated {e : Expr} {v : Value} : m.deed = .evaluated e v → v.Comes bs l
  makes : m.deed.IsFunction → ∃ f, m.Makes f
  unique {f g : Closure} : m.Makes f → m.Makes g → f = g
  apart {n : Entry} {f g : Closure} : n ∈ l → n.Makes f → m.Makes g →
    f.id ≠ g.id ∧ ¬ (f.frame = g.frame ∧ f.name = g.name)

namespace Entry

variable {bs bs' : List Builtin} {l : List Entry} {m : Entry}

theorem Follows.mono (h : m.Follows bs l) (hbs : bs ⊆ bs') : m.Follows bs' l where
  evaluated hm := (h.evaluated hm).mono hbs (List.Subset.refl l)
  makes := h.makes
  unique := h.unique
  apart := h.apart

/-- An entry that does not tell of a declaration of a function. -/
theorem follows_of_not_isFunction (hm : ¬ m.deed.IsFunction)
    (hv : ∀ e v, m.deed = .evaluated e v → v.Comes bs l) : m.Follows bs l where
  evaluated := hv _ _
  makes h := absurd h hm
  unique h := absurd h.isFunction hm
  apart _ _ h := absurd h.isFunction hm

end Entry

/-- Every entry of the account fits to those before it. -/
def Orderly (bs : List Builtin) (l : List Entry) : Prop :=
  ∀ (k : Nat) (m : Entry), l[k]? = some m → m.Follows bs (l.take k)

namespace Orderly

variable {bs bs' : List Builtin} {l : List Entry} {m n : Entry} {f g : Closure}

theorem nil : Orderly bs [] := fun _ _ h => by cases h

theorem mono (h : Orderly bs l) (hbs : bs ⊆ bs') : Orderly bs' l :=
  fun k m hm => (h k m hm).mono hbs

theorem snoc (h : Orderly bs l) (hm : m.Follows bs l) : Orderly bs (l ++ [m]) := by
  intro k n hn
  rcases lt_trichotomy k l.length with hlt | rfl | hgt
  · rw [List.getElem?_append_left hlt] at hn
    rw [List.take_append_of_le_length hlt.le]
    exact h k n hn
  · rw [List.getElem?_concat_length] at hn
    obtain rfl := Option.some.inj hn
    rwa [List.take_left]
  · have hlength : (l ++ [m]).length ≤ k := by simpa using Nat.succ_le_of_lt hgt
    rw [List.getElem?_eq_none hlength] at hn
    cases hn

end Orderly

/-! ## Sessions in which functions can be traced back -/

/-- The builtin functions of a run, given the identity of the first. -/
def Builtin.installed (id : Nat) : List Builtin := [⟨id, "print", .print⟩, ⟨id + 1, "len", .len⟩]

namespace Session

/-- The functions in the session can be traced back to an orderly account, and to builtin functions,
and those that have been made are there for good. -/
structure Traced (bs : List Builtin) (l : List Entry) (s : Session) : Prop where
  orderly : Orderly bs l
  bound {v : Value} : s.arena.Binds v → v.Comes bs l
  made {m : Entry} {f : Closure} : m ∈ l → m.Makes f →
    f.id < s.nextId ∧ s.arena.Pins f.frame f.name
  builtin {b : Builtin} : b ∈ bs → b.id < s.nextId
  distinct : (bs.map Builtin.id).Nodup

/-- A change of a session in which nothing is lost. -/
structure Advances (V : Value → Prop) (s t : Session) : Prop where
  arena : s.arena.Advances V t.arena
  nextId : s.nextId ≤ t.nextId

namespace Traced

variable {bs : List Builtin} {l : List Entry} {s t : Session} {m : Entry}

theorem fresh : Traced [] [] {} where
  orderly := .nil
  bound := by
    rintro _ ⟨i, f, hf, -⟩
    exact absurd (Arena.lt_size_of_frame? hf) (Nat.not_lt_zero i)
  made hm := absurd hm List.not_mem_nil
  builtin hb := absurd hb List.not_mem_nil
  distinct := List.nodup_nil

variable (h : s.Traced bs l)
include h

/-- Nothing is told. -/
theorem advance (ht : s.Advances (Value.Comes bs l) t) : t.Traced bs l where
  orderly := h.orderly
  bound hv := (ht.arena.binds hv).elim id h.bound
  made hm hf := ⟨(h.made hm hf).1.trans_le ht.nextId, ht.arena.pins (h.made hm hf).2⟩
  builtin hb := (h.builtin hb).trans_le ht.nextId
  distinct := h.distinct

theorem still (harena : t.arena = s.arena) (hid : t.nextId = s.nextId) : t.Traced bs l :=
  h.advance ⟨harena ▸ .refl _ _, hid.ge⟩

theorem changed {arena : Arena Value} (ha : s.arena.Advances (Value.Comes bs l) arena) :
    Traced bs l { s with arena } :=
  h.advance ⟨ha, le_rfl⟩

/-- Something is told along with the change. -/
theorem tell (hm : m.Follows bs l) (ht : s.Advances (Value.Comes bs (l ++ [m])) t)
    (hmade : ∀ f, m.Makes f → f.id < t.nextId ∧ t.arena.Pins f.frame f.name) :
    t.Traced bs (l ++ [m]) where
  orderly := h.orderly.snoc hm
  bound hv := (ht.arena.binds hv).elim id fun hv =>
    (h.bound hv).later (List.subset_append_left l [m])
  made {n f} hn hf := by
    rcases List.mem_append.mp hn with hn | hn
    · exact ⟨(h.made hn hf).1.trans_le ht.nextId, ht.arena.pins (h.made hn hf).2⟩
    · obtain rfl := List.mem_singleton.mp hn
      exact hmade f hf
  builtin hb := (h.builtin hb).trans_le ht.nextId
  distinct := h.distinct

/-- An entry that does not tell of a declaration of a function. -/
theorem tell_data (hm : ¬ m.deed.IsFunction)
    (hv : ∀ e v, m.deed = .evaluated e v → v.Comes bs l) : s.Traced bs (l ++ [m]) :=
  h.tell (Entry.follows_of_not_isFunction hm hv) ⟨.refl _ _, le_rfl⟩
    fun _ hf => absurd hf.isFunction hm

/-- A function has been declared. Its identity is new, and so is its name in its frame: no function
that was made before can be bound there, since it would be still. -/
theorem declared {f : Closure} {arena : Arena Value} (a : Surroundings) (hid : f.id = s.nextId)
    (hdefine : (s.arena.capture f.frame).define f.frame f.name ⟨.closure f, .func, f.pos⟩ =
      .ok arena) :
    Traced bs (l ++ [⟨.executed (.func f.pos f.name f.parameters f.body), a,
        { s with arena, nextId := s.nextId + 1 }⟩])
      { s with arena, nextId := s.nextId + 1 } := by
  set t : Session := { s with arena, nextId := s.nextId + 1 } with ht
  set m : Entry := ⟨.executed (.func f.pos f.name f.parameters f.body), a, t⟩ with hm
  have hcapture : s.arena.Advances (· = .closure f) (s.arena.capture f.frame) :=
    Arena.advances_capture f.frame
  have hadvances : s.arena.Advances (· = .closure f) arena :=
    hcapture.trans (Arena.advances_define rfl hdefine)
  obtain ⟨g, -, -, hg, -⟩ := Arena.defines_of_define hdefine
  have hmakes : m.Makes f :=
    ⟨rfl, by rw [hm, ht, hid], _, hg, List.mem_append_right _ (List.mem_singleton_self _)⟩
  -- the functions that were bound before have smaller identities
  have honly : ∀ f', m.Makes f' → f' = f := by
    intro f' hf'
    obtain ⟨g', hg', hx⟩ := hf'.bound
    rcases hadvances.binds ⟨_, g', hg', _, hx, rfl⟩ with heq | hbinds
    · exact Value.closure.inj heq
    · obtain ⟨n, hn, hmade⟩ := h.bound hbinds
      have hlt := (h.made hn hmade).1
      have hlatest : s.nextId + 1 = f'.id + 1 := hf'.latest
      omega
  have hfollows : m.Follows bs l := by
    refine ⟨nofun, fun _ => ⟨f, hmakes⟩, fun hf hg => ?_, fun hn hf' hf => ?_⟩
    · rw [honly _ hf, honly _ hg]
    · obtain rfl := honly _ hf
      obtain ⟨hlt, hpins⟩ := h.made hn hf'
      -- a frame that was captured before is still the same one, whatever was reclaimed since
      refine ⟨(hid ▸ hlt).ne, fun ⟨hframe, hname⟩ => ?_⟩
      rw [hframe, hname] at hpins
      exact Arena.not_pins_of_define hdefine (hcapture.pins hpins)
  refine h.tell hfollows ⟨hadvances.mono ?_, Nat.le_succ _⟩ fun f' hf' => ?_
  · rintro _ rfl
    exact ⟨m, List.mem_append_right _ (List.mem_singleton_self _), hmakes⟩
  · obtain rfl := honly _ hf'
    exact ⟨hid ▸ Nat.lt_succ_self _, Arena.pins_of_define hdefine⟩

/-- The builtin functions of a run have identities of their own. -/
theorem opened : s.opened.Traced (bs ++ Builtin.installed s.nextId) l where
  orderly := h.orderly.mono (List.subset_append_left ..)
  bound := by
    rintro _ ⟨i, f, hf, x, hx, rfl⟩
    rw [frame?_opened] at hf
    split at hf
    · obtain rfl := Option.some.inj hf
      cases hx
    · split at hf
      · obtain rfl := Option.some.inj hf
        rcases List.mem_pair.mp hx with rfl | rfl
        · exact List.mem_append_right _ List.mem_cons_self
        · exact List.mem_append_right _ (List.mem_cons_of_mem _ List.mem_cons_self)
      · exact (h.bound ⟨i, f, hf, x, hx, rfl⟩).mono (List.subset_append_left ..)
          (List.Subset.refl l)
  made {m f} hm hf := by
    obtain ⟨hlt, g, hg, hpins⟩ := h.made hm hf
    have hframe := Arena.lt_size_of_frame? hg
    refine ⟨Nat.lt_add_right 2 hlt, g, ?_, hpins⟩
    rwa [frame?_opened, if_neg (by omega), if_neg (by omega)]
  builtin {b} hb := by
    change b.id < s.nextId + 2
    rcases List.mem_append.mp hb with hb | hb
    · exact Nat.lt_add_right 2 (h.builtin hb)
    · rcases List.mem_pair.mp hb with rfl | rfl
      · exact Nat.lt_add_of_pos_right Nat.two_pos
      · exact Nat.lt_succ_self _
  distinct := by
    -- no builtin function has had an identity from the next one on
    rw [List.map_append, List.nodup_append]
    refine ⟨h.distinct, by simp [Builtin.installed], fun i hi j hj => ?_⟩
    obtain ⟨b, hb, rfl⟩ := List.mem_map.mp hi
    have hlt := h.builtin hb
    rcases List.mem_pair.mp hj with rfl | rfl
    · exact hlt.ne
    · exact (Nat.lt_succ_of_lt hlt).ne

end Traced

end Session

end MiniApp
