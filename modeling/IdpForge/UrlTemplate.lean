import IdpForge.RouteDispatch

/-!
# Templates of URLs

A client writes the URLs it calls as templates: text with places for its parameters. A router
has registered paths. When the path of a template, its places read as the parameters of a
path, is a registered path, every URL made from the template is a request of that route:
whatever stands in the places, as long as it is one nonempty segment, and whatever query
follows.

## Main results

* `matchPath_render`: what a template renders to is matched by the template's own pattern.
* `urlPath_render`: the path of a rendered URL is the rendered path.
-/

namespace UrlTemplate

open RouteDispatch

/-- A piece of a template: text, or the place of a parameter. -/
inductive Piece (ν : Type*) where
  | text (s : String)
  | arg (name : ν)
  deriving DecidableEq, Repr

variable {ν : Type*}

/-- What a piece is written as. -/
def Piece.render (args : ν → List Char) : Piece ν → List Char
  | .text s => s.toList
  | .arg n => args n

/-- The template with its parameters put in. -/
def render (args : ν → List Char) (t : List (Piece ν)) : List Char :=
  t.flatMap (Piece.render args)

/-- The symbols of a piece in a registered path. -/
def Piece.symbols : Piece ν → List Sym
  | .text s => s.toList.map .lit
  | .arg _ => [.param]

/-- The registered path that has a parameter in each place of the template. -/
def pattern (t : List (Piece ν)) : List Sym := t.flatMap Piece.symbols

/-- Each parameter of a registered path is the rest of its segment. -/
def closed : List Sym → Bool
  | [] => true
  | .lit _ :: syms => closed syms
  | .param :: syms => (syms.head?.all (· == .lit '/')) && closed syms

/-- A nonempty stretch of characters up to the next slash. -/
def Segment (s : List Char) : Prop := s ≠ [] ∧ '/' ∉ s

/-- The path of a URL reference: what stands before its query and its fragment. -/
def urlPath (url : List Char) : List Char := url.takeWhile fun c => c ≠ '?' && c ≠ '#'

/-- A query with its question mark, or nothing. -/
def QueryText (s : List Char) : Prop := s.head?.all (· == '?') = true

section Render

variable {args : ν → List Char}

/-- Text is rendered as it stands. -/
@[simp] theorem render_text (s : String) : (Piece.text s : Piece ν).render args = s.toList := rfl

/-- A place is rendered as its parameter. -/
@[simp] theorem render_arg (n : ν) : (Piece.arg n).render args = args n := rfl

/-- A template without pieces renders to nothing. -/
@[simp] theorem render_nil : render args ([] : List (Piece ν)) = [] := rfl

/-- The first piece is rendered first. -/
@[simp] theorem render_cons (p : Piece ν) (t : List (Piece ν)) :
    render args (p :: t) = p.render args ++ render args t := rfl

/-- Templates are rendered one after the other. -/
theorem render_append (t t' : List (Piece ν)) :
    render args (t ++ t') = render args t ++ render args t' := List.flatMap_append

/-- The pattern starts with the symbols of the first piece. -/
@[simp] theorem pattern_cons (p : Piece ν) (t : List (Piece ν)) :
    pattern (p :: t) = p.symbols ++ pattern t := rfl

/-- Where the text is left alone by a map of characters, the map only changes the
parameters. -/
theorem render_map (f : Char → Char) {t : List (Piece ν)}
    (htext : ∀ s, .text s ∈ t → s.toList.map f = s.toList) :
    (render args t).map f = render (fun n => (args n).map f) t := by
  induction t with
  | nil => rfl
  | cons p t ih =>
      have htail := ih fun s hs => htext s (List.mem_cons_of_mem _ hs)
      rw [render_cons, render_cons, List.map_append, htail]
      cases p with
      | text s => rw [render_text, render_text, htext s List.mem_cons_self]
      | arg n => rfl

/-- What is rendered ends as its last piece does. -/
theorem getLast?_render {t : List (Piece ν)} {p : Piece ν} (hp : t.getLast? = some p)
    (hne : p.render args ≠ []) : (render args t).getLast? = (p.render args).getLast? := by
  obtain ⟨t, rfl⟩ := List.getLast?_eq_some_iff.mp hp
  rw [render_append, render_cons, render_nil, List.append_nil, List.getLast?_append_of_ne_nil _ hne]

/-- A character that is in no text and in no parameter is not in what is rendered. -/
theorem notMem_render {c : Char} {t : List (Piece ν)} (htext : ∀ s, .text s ∈ t → c ∉ s.toList)
    (harg : ∀ n, .arg n ∈ t → c ∉ args n) : c ∉ render args t := by
  rw [render, List.mem_flatMap]
  rintro ⟨p, hp, hc⟩
  cases p with
  | text s => exact htext s hp hc
  | arg n => exact harg n hp hc

/-! ### Matching -/

/-- Literal symbols match their own text. -/
theorem matchPath_lits (s : List Char) (syms : List Sym) (path : List Char) :
    matchPath true (s.map .lit ++ syms) (s ++ path) = matchPath true syms path := by
  induction s with
  | nil => rfl
  | cons c s ih => simpa [matchPath] using ih

/-- A parameter matches a segment that a slash or the end follows. -/
theorem matchPath_param {s : List Char} (hs : Segment s) (syms : List Sym) {path : List Char}
    (hpath : path.head?.all (· == '/') = true) :
    matchPath true (.param :: syms) (s ++ path) = matchPath true syms path := by
  have hall : ∀ c ∈ s, (c != '/') = true := by
    intro c hc
    rw [bne_iff_ne]
    rintro rfl
    exact hs.2 hc
  have hstop : path.takeWhile (· != '/') = [] ∧ path.dropWhile (· != '/') = path := by
    cases path with
    | nil => exact ⟨rfl, rfl⟩
    | cons c path =>
        obtain rfl : c = '/' := by simpa using hpath
        exact ⟨rfl, rfl⟩
  rw [matchPath, List.takeWhile_append_of_pos hall, List.dropWhile_append_of_pos hall, hstop.1,
    hstop.2, List.append_nil]
  simp [hs.1]

/-- What follows a parameter of a closed pattern starts with a slash, or is nothing. -/
theorem head_render_of_closed {t : List (Piece ν)}
    (hclosed : (pattern t).head?.all (· == .lit '/') = true)
    (htext : ∀ s, .text s ∈ t → s.toList ≠ []) :
    (render args t).head?.all (· == '/') = true := by
  cases t with
  | nil => rfl
  | cons p t =>
      cases p with
      | text s =>
          obtain ⟨c, cs, hs⟩ := List.exists_cons_of_ne_nil (htext s List.mem_cons_self)
          simpa [Piece.symbols, hs] using hclosed
      | arg n => simp [Piece.symbols] at hclosed

/-- The symbols of a text leave the pattern after it closed. -/
theorem closed_lits (s : List Char) (syms : List Sym) :
    closed (s.map .lit ++ syms) = closed syms := by
  induction s with
  | nil => rfl
  | cons c s ih => simpa [closed] using ih

/-- **A template is matched by its own pattern**, whatever segments its parameters are. -/
theorem matchPath_render {t : List (Piece ν)} (hclosed : closed (pattern t) = true)
    (htext : ∀ s, .text s ∈ t → s.toList ≠ []) (harg : ∀ n, .arg n ∈ t → Segment (args n)) :
    matchPath true (pattern t) (render args t) = true := by
  induction t with
  | nil => rfl
  | cons p t ih =>
      have htail : ∀ s, .text s ∈ t → s.toList ≠ [] :=
        fun s hs => htext s (List.mem_cons_of_mem _ hs)
      have hargs : ∀ n, .arg n ∈ t → Segment (args n) :=
        fun n hn => harg n (List.mem_cons_of_mem _ hn)
      rw [pattern_cons, render_cons] at *
      cases p with
      | text s =>
          rw [Piece.symbols, closed_lits] at hclosed
          rw [Piece.symbols, render_text, matchPath_lits]
          exact ih hclosed htail hargs
      | arg n =>
          simp only [Piece.symbols, List.singleton_append, closed, Bool.and_eq_true] at hclosed
          rw [Piece.symbols, render_arg, List.singleton_append,
            matchPath_param (harg n List.mem_cons_self) _ (head_render_of_closed hclosed.1 htail)]
          exact ih hclosed.2 htail hargs

/-! ### The path of a URL -/

/-- **The path of a rendered URL** is the rendered path, whatever query follows it. -/
theorem urlPath_render {path : List Char} (hquestion : '?' ∉ path) (hhash : '#' ∉ path)
    {query : List Char} (hquery : QueryText query) : urlPath (path ++ query) = path := by
  have hall : ∀ c ∈ path, (c ≠ '?' && c ≠ '#') = true := by
    intro c hc
    simp only [ne_eq, Bool.and_eq_true, decide_eq_true_eq]
    exact ⟨fun h => hquestion (h ▸ hc), fun h => hhash (h ▸ hc)⟩
  rw [urlPath, List.takeWhile_append_of_pos hall]
  cases query with
  | nil => simp
  | cons c query =>
      obtain rfl : c = '?' := by simpa [QueryText] using hquery
      simp

end Render

end UrlTemplate
