import Mathlib.Data.List.Basic

/-!
# Dispatch over Registered Layers

An HTTP router that keeps its registrations as one ordered list of layers. A layer either
belongs to a method and matches a whole path, or is middleware: it belongs to every method
and matches a path that starts with its own. A request runs the handlers of the layers that
match it, in the order of registration, until one of them answers instead of passing on.

A path is a list of symbols, characters and parameters; a parameter stands for a nonempty
stretch of characters up to the next slash. Which layers match a request is then, for most
pairs of layer and route, decided by the symbols alone, whatever the parameters stand for.

## Main results

* `dispatch_eq_runHandlers`: a request runs the concatenated handlers of its matching
  layers.
* `chain_eq_of_staticChain`: the handlers that run for a route's requests can be computed
  from the registrations, once for all requests of the route.
-/

namespace RouteDispatch

/-- A symbol of a registered path. -/
inductive Sym where
  | lit (c : Char)
  | param
  deriving DecidableEq, Repr

/-- Reads a registered path: `:` at the start of a segment opens a parameter, whose name
extends to the next slash. -/
def parse : Bool → List Char → List Sym
  | _, [] => []
  | inName, c :: cs =>
      if c = '/' then .lit '/' :: parse false cs
      else if inName then parse true cs
      else if c = ':' then .param :: parse true cs
      else .lit c :: parse false cs

/-- Whether a registered path matches the path of a request, as a whole or as the start of
it. -/
def matchPath (whole : Bool) : List Sym → List Char → Bool
  | [], path => !whole || path.isEmpty
  | .lit _ :: _, [] => false
  | .lit c :: syms, x :: xs => c == x && matchPath whole syms xs
  | .param :: syms, path =>
      !(path.takeWhile (· != '/')).isEmpty && matchPath whole syms (path.dropWhile (· != '/'))

/-- A registration: middleware when it has no method. -/
structure Layer (μ η : Type*) where
  method : Option μ
  path : List Sym
  handlers : List η
  deriving DecidableEq

variable {μ η σ ρ : Type*} [DecidableEq μ]

/-- Whether a layer takes part in serving a request. -/
def Layer.covers (l : Layer μ η) (m : μ) (path : List Char) : Bool :=
  match l.method with
  | none => matchPath false l.path path
  | some m' => m' == m && matchPath true l.path path

/-- What a handler does: pass on, possibly with a changed context, or answer. -/
inductive Flow (σ ρ : Type*) where
  | next (s : σ)
  | done (r : ρ)
  deriving DecidableEq, Repr

/-- Runs handlers in order until one answers. -/
def runHandlers (exec : η → σ → Flow σ ρ) : List η → σ → Flow σ ρ
  | [], s => .next s
  | h :: hs, s =>
      match exec h s with
      | .next s' => runHandlers exec hs s'
      | .done r => .done r

/-- Serves a request: each matching layer in turn, until a handler answers. -/
def dispatch (exec : η → σ → Flow σ ρ) (m : μ) (path : List Char) :
    List (Layer μ η) → σ → Flow σ ρ
  | [], s => .next s
  | l :: ls, s =>
      if l.covers m path then
        match runHandlers exec l.handlers s with
        | .next s' => dispatch exec m path ls s'
        | .done r => .done r
      else dispatch exec m path ls s

/-- The handlers of the layers that match, in order. -/
def chain (m : μ) (path : List Char) : List (Layer μ η) → List η
  | [] => []
  | l :: ls => if l.covers m path then l.handlers ++ chain m path ls else chain m path ls

/-! ### Handlers in sequence -/

/-- Without handlers the state is passed on. -/
@[simp] theorem runHandlers_nil (exec : η → σ → Flow σ ρ) (s : σ) :
    runHandlers exec [] s = .next s := rfl

/-- Handlers in sequence: the second list runs when the first has passed on. -/
theorem runHandlers_append (exec : η → σ → Flow σ ρ) (hs hs' : List η) (s : σ) :
    runHandlers exec (hs ++ hs') s =
      match runHandlers exec hs s with
      | .next s' => runHandlers exec hs' s'
      | .done r => .done r := by
  induction hs generalizing s with
  | nil => rfl
  | cons h hs ih =>
      simp only [List.cons_append, runHandlers]
      cases exec h s with
      | next s' => exact ih s'
      | done r => rfl

/-- **Dispatch is the chain of the matching layers.** -/
theorem dispatch_eq_runHandlers (exec : η → σ → Flow σ ρ) (m : μ) (path : List Char)
    (layers : List (Layer μ η)) (s : σ) :
    dispatch exec m path layers s = runHandlers exec (chain m path layers) s := by
  induction layers generalizing s with
  | nil => rfl
  | cons l ls ih =>
      rw [dispatch, chain]
      split
      · rw [runHandlers_append]
        cases runHandlers exec l.handlers s with
        | next s' => exact ih s'
        | done r => rfl
      · exact ih s

/-- A handler of the chain belongs to a layer that covers the request. -/
theorem mem_chain {m : μ} {path : List Char} {layers : List (Layer μ η)} {h : η}
    (hmem : h ∈ chain m path layers) :
    ∃ l ∈ layers, l.covers m path = true ∧ h ∈ l.handlers := by
  induction layers with
  | nil => simp [chain] at hmem
  | cons l ls ih =>
      rw [chain] at hmem
      split at hmem
      · next hcovers =>
          rcases List.mem_append.mp hmem with hl | hls
          · exact ⟨l, List.mem_cons_self, hcovers, hl⟩
          · obtain ⟨l', hl', hrest⟩ := ih hls
            exact ⟨l', List.mem_cons_of_mem _ hl', hrest⟩
      · obtain ⟨l', hl', hrest⟩ := ih hmem
        exact ⟨l', List.mem_cons_of_mem _ hl', hrest⟩

/-- Literal symbols match their own text alone. -/
theorem matchPath_lits_iff {s path : List Char} :
    matchPath true (s.map .lit) path = true ↔ path = s := by
  induction s generalizing path with
  | nil => simp [matchPath]
  | cons c s ih =>
      cases path with
      | nil => simp [matchPath]
      | cons x path => simp [matchPath, ih, eq_comm (a := c)]

/-- **The rule for a sequence of handlers.** When each handler keeps `P` and, where `P`
holds, passes on exactly if `ok` holds of it, the sequence passes on exactly if `ok` holds of
them all. -/
theorem exists_runHandlers_next_iff {exec : η → σ → Flow σ ρ} {P : σ → Prop} {ok : η → Prop}
    {hs : List η} (hkeep : ∀ h ∈ hs, ∀ s s', P s → exec h s = .next s' → P s')
    (hok : ∀ h ∈ hs, ∀ s, P s → ((∃ s', exec h s = .next s') ↔ ok h)) {s : σ} (hs₀ : P s) :
    (∃ s', runHandlers exec hs s = .next s') ↔ ∀ h ∈ hs, ok h := by
  induction hs generalizing s with
  | nil => simp
  | cons h hs ih =>
      rw [List.forall_mem_cons] at hkeep hok ⊢
      have hiff := hok.1 s hs₀
      rw [runHandlers]
      cases hexec : exec h s with
      | next t =>
          have ht : P t := hkeep.1 s t hs₀ hexec
          have hh : ok h := hiff.mp ⟨t, hexec⟩
          simpa [hh] using ih hkeep.2 hok.2 ht
      | done r =>
          have hh : ¬ ok h := fun hh => by
            obtain ⟨s', hs'⟩ := hiff.mpr hh
            simp [hexec] at hs'
          simp [hh]

/-- Handlers that leave the context alone pass on together exactly when each passes on. -/
theorem runHandlers_eq_next_iff {exec : η → σ → Flow σ ρ} {hs : List η} {s : σ}
    (hpure : ∀ h ∈ hs, ∀ s', exec h s = .next s' → s' = s) {s' : σ} :
    runHandlers exec hs s = .next s' ↔ s' = s ∧ ∀ h ∈ hs, exec h s = .next s := by
  induction hs with
  | nil => simp [eq_comm]
  | cons h hs ih =>
      rw [List.forall_mem_cons] at hpure
      rw [List.forall_mem_cons, runHandlers]
      cases hexec : exec h s with
      | next t =>
          obtain rfl : t = s := hpure.1 t hexec
          simpa using ih hpure.2
      | done r => simp

/-! ### The chain of a route -/

/-- Whether a middleware path is the start of every path of a route: `none` where that
depends on a parameter. -/
def startsRoute : List Sym → List Sym → Option Bool
  | [], _ => some true
  | .lit _ :: _, [] => some false
  | .lit c :: syms, .lit d :: route =>
      if c = d then startsRoute syms route else some false
  | _, _ => none

/-- Whether two paths are seen to have no common request path. -/
def disjoint : List Sym → List Sym → Bool
  | [], _ :: _ => true
  | _ :: _, [] => true
  | .lit c :: s, .lit d :: t => c != d || disjoint s t
  | .param :: s, .param :: t => disjoint s t
  | _, _ => false

/-- Whether a layer takes part in every request of a route: `none` where that depends on a
parameter. -/
def Layer.serves (l : Layer μ η) (m : μ) (route : List Sym) : Option Bool :=
  match l.method with
  | none => startsRoute l.path route
  | some m' =>
      if m' ≠ m then some false
      else if l.path = route then some true
      else if disjoint l.path route then some false
      else none

/-- The handlers that run for every request of a route. -/
def staticChain (m : μ) (route : List Sym) : List (Layer μ η) → Option (List η)
  | [] => some []
  | l :: ls =>
      match l.serves m route, staticChain m route ls with
      | some true, some hs => some (l.handlers ++ hs)
      | some false, some hs => some hs
      | _, _ => none

/-- A decided middleware path matches the requests of the route accordingly. -/
theorem matchPath_of_startsRoute {syms route : List Sym} {path : List Char} {b : Bool}
    (h : startsRoute syms route = some b) (hroute : matchPath true route path = true) :
    matchPath false syms path = b := by
  induction syms, route using startsRoute.induct generalizing path with
  | case1 route =>
      rw [startsRoute, Option.some.injEq] at h
      simp [matchPath, h]
  | case2 c syms =>
      rw [startsRoute, Option.some.injEq] at h
      simp only [matchPath, Bool.not_true, Bool.false_or, List.isEmpty_iff] at hroute
      simp [matchPath, hroute, ← h]
  | case3 syms d route ih =>
      rw [startsRoute, if_pos rfl] at h
      cases path with
      | nil => simp [matchPath] at hroute
      | cons x xs =>
          simp only [matchPath, Bool.and_eq_true, beq_iff_eq] at hroute
          simp [matchPath, hroute.1, ih h hroute.2]
  | case4 c syms d route hne =>
      rw [startsRoute, if_neg hne, Option.some.injEq] at h
      cases path with
      | nil => simp [matchPath] at hroute
      | cons x xs =>
          simp only [matchPath, Bool.and_eq_true, beq_iff_eq] at hroute
          simp [matchPath, ← hroute.1, hne, ← h]
  | case5 syms route h₁ h₂ h₃ =>
      rw [startsRoute] at h
      · simp at h
      all_goals assumption

/-- Disjoint paths match no common request path. -/
theorem matchPath_of_disjoint {s t : List Sym} {path : List Char}
    (h : disjoint s t = true) (ht : matchPath true t path = true) :
    matchPath true s path = false := by
  induction s, t using disjoint.induct generalizing path with
  | case1 head tail =>
      cases path with
      | nil => cases head <;> simp [matchPath] at ht
      | cons x xs => simp [matchPath]
  | case2 head tail =>
      simp only [matchPath, Bool.not_true, Bool.false_or, List.isEmpty_iff] at ht
      cases head <;> simp [matchPath, ht]
  | case3 c s d t ih =>
      cases path with
      | nil => simp [matchPath] at ht
      | cons x xs =>
          simp only [matchPath, Bool.and_eq_true, beq_iff_eq] at ht
          simp only [disjoint, Bool.or_eq_true, bne_iff_ne] at h
          rw [matchPath, Bool.and_eq_false_iff]
          refine h.imp (fun hne => ?_) (fun hd => ih hd ht.2)
          simpa [← ht.1] using hne
  | case4 s t ih =>
      simp only [matchPath, Bool.and_eq_true] at ht
      rw [matchPath, ih (by simpa [disjoint] using h) ht.2, Bool.and_false]
  | case5 s t h₁ h₂ h₃ h₄ =>
      rw [disjoint] at h
      · simp at h
      all_goals assumption

/-- A decided layer covers the requests of the route accordingly. -/
theorem Layer.covers_of_serves {l : Layer μ η} {m : μ} {route : List Sym}
    {path : List Char} {b : Bool} (h : l.serves m route = some b)
    (hroute : matchPath true route path = true) : l.covers m path = b := by
  rw [Layer.serves] at h
  rw [Layer.covers]
  cases hmethod : l.method with
  | none =>
      rw [hmethod] at h
      exact matchPath_of_startsRoute h hroute
  | some m' =>
      simp only [hmethod] at h
      split at h
      · next hne =>
          rw [Option.some.injEq] at h
          simp [hne, ← h]
      · next heq =>
          rw [not_not] at heq
          split at h
          · next hpath => simpa [heq, hpath, hroute] using h
          · split at h
            · next hd =>
                rw [Option.some.injEq] at h
                simp [matchPath_of_disjoint hd hroute, ← h]
            · simp at h

/-- **The chain of a route can be computed from the registrations.** -/
theorem chain_eq_of_staticChain {layers : List (Layer μ η)} {m : μ} {route : List Sym}
    {path : List Char} {hs : List η} (h : staticChain m route layers = some hs)
    (hroute : matchPath true route path = true) : chain m path layers = hs := by
  induction layers generalizing hs with
  | nil => simpa [staticChain, chain] using h
  | cons l ls ih =>
      rw [staticChain] at h
      rw [chain]
      cases hserves : l.serves m route with
      | none => simp [hserves] at h
      | some b =>
          cases hrest : staticChain m route ls with
          | none => cases b <;> simp [hserves, hrest] at h
          | some rest =>
              rw [l.covers_of_serves hserves hroute, ih hrest]
              cases b <;> simpa [hserves, hrest] using h

end RouteDispatch
