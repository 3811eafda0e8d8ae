import IdpForge.GoStrconv
import IdpForge.GoStrings

/-!
# Hosts with a Port

The host of a URL may end in a colon and the digits of a port, of which there may be none. A name
in brackets, with colons of its own, is left whole. What lower case does to a host it does to the
name.

## Main results

* `splitPort_eq_some_iff`: the hosts that are split, and where.
* `splitPort_inj`: a host is told by its name and its port.
* `LowerCases.splitPort_toLower`: lower case leaves the port alone.
-/

open GoStrings GoStrconv

namespace HostPort

/-- The text of a port: digits, or nothing. -/
def isPort (p : String) : Bool := p.toList.all Char.isDigit

/-- A name and a port. -/
def joinPort (name : String) : Option String → String
  | none => name
  | some p => name ++ String.singleton ':' ++ p

/-- The name of a host, and its port if there is one. -/
def splitPort (host : String) : String × Option String :=
  match cutLast host ':' with
  | some (name, p) => if isPort p then (name, some p) else (host, none)
  | none => (host, none)

variable {host name p : String}

/-- No port contains a colon. -/
theorem colon_notMem (h : isPort p = true) : ':' ∉ p.toList :=
  fun hmem => absurd (List.all_eq_true.mp h ':' hmem) (by decide)

/-- A host with a port is split before it. -/
theorem splitPort_joinPort_some (h : isPort p = true) :
    splitPort (joinPort name (some p)) = (name, some p) := by
  have hcut : cutLast (joinPort name (some p)) ':' = some (name, p) :=
    cutLast_eq_some_iff.mpr ⟨rfl, colon_notMem h⟩
  rw [splitPort, hcut]
  exact if_pos h

/-- The hosts that are split, and where. -/
theorem splitPort_eq_some_iff :
    splitPort host = (name, some p) ↔ host = joinPort name (some p) ∧ isPort p = true := by
  constructor
  · intro h
    rw [splitPort] at h
    split at h
    · next n q hcut =>
        split at h
        · next hport =>
            obtain ⟨rfl, rfl⟩ : n = name ∧ q = p := by simpa using h
            exact ⟨(cutLast_eq_some_iff.mp hcut).1, hport⟩
        · simp at h
    · simp at h
  · rintro ⟨rfl, hport⟩
    exact splitPort_joinPort_some hport

/-- A host without a port is its name. -/
theorem fst_splitPort_of_none (h : (splitPort host).2 = none) : (splitPort host).1 = host := by
  rw [splitPort] at h ⊢
  split at h
  · split at h
    · simp at h
    · next hport => simp only [hport, Bool.false_eq_true, if_false]
  · rfl

/-- What is split is joined again. -/
theorem joinPort_splitPort (host : String) :
    joinPort (splitPort host).1 (splitPort host).2 = host := by
  rcases hport : (splitPort host).2 with _ | p
  · exact fst_splitPort_of_none hport
  · exact (splitPort_eq_some_iff.mp (Prod.ext rfl hport)).1.symm

/-- A host is told by its name and its port. -/
theorem splitPort_inj {host' : String} : splitPort host = splitPort host' ↔ host = host' := by
  refine ⟨fun h => ?_, fun h => by rw [h]⟩
  rw [← joinPort_splitPort host, h, joinPort_splitPort]

/-- A name that does not end in a port is split off any port. -/
theorem splitPort_joinPort {port : Option String} (hname : (splitPort name).2 = none)
    (hport : ∀ p, port = some p → isPort p = true) :
    splitPort (joinPort name port) = (name, port) := by
  cases port with
  | none => exact Prod.ext (fst_splitPort_of_none hname) hname
  | some p => exact splitPort_joinPort_some (hport p rfl)

/-! ### Lower case -/

/-- The function replaces each character by its lower case: an ASCII letter by the small one, any
other ASCII character by itself, and none above them by a digit or a colon. -/
structure LowerCases (toLower : String → String) (lower : Char → Char) : Prop where
  map : ∀ s, (toLower s).toList = s.toList.map lower
  ascii : ∀ c, c.toNat < 128 → lower c = c.toLower
  above : ∀ c, 128 ≤ c.toNat → lower c ≠ ':' ∧ (lower c).isDigit = false

/-- No character above ASCII is a colon or a digit. -/
theorem ne_delimiter {c : Char} (hc : 128 ≤ c.toNat) : c ≠ ':' ∧ c.isDigit = false := by
  have hcolon : ':'.toNat = 58 := rfl
  have hnine : '9'.toNat = 57 := rfl
  constructor
  · rintro rfl
    omega
  · rw [← Bool.not_eq_true, Char.isDigit_iff_toNat]
    omega

section Lower

variable {toLower : String → String} {lower : Char → Char} (h : LowerCases toLower lower)

include h

/-- The lower case of two texts is put together. -/
theorem LowerCases.append (s t : String) : toLower (s ++ t) = toLower s ++ toLower t := by
  rw [← String.toList_inj, String.toList_append, h.map, h.map, h.map, String.toList_append,
    List.map_append]

/-- A text of ASCII characters without capitals is its own lower case. -/
theorem LowerCases.fixed {s : String} (hs : ∀ c ∈ s.toList, c.toNat < 128 ∧ c.toLower = c) :
    toLower s = s := by
  rw [← String.toList_inj, h.map]
  exact (List.map_congr_left fun c hc => (h.ascii c (hs c hc).1).trans (hs c hc).2).trans
    (List.map_id' _)

/-- Lower case makes nothing a colon or a digit, and leaves these alone. -/
theorem LowerCases.delimiters (c : Char) :
    (lower c = ':' ↔ c = ':') ∧ (lower c).isDigit = c.isDigit ∧
      (c.isDigit = true → lower c = c) := by
  by_cases hc : c.toNat < 128
  · have hall : ∀ n : Fin 128, ((Char.ofNat n).toLower = ':' ↔ Char.ofNat n = ':') ∧
        (Char.ofNat n).toLower.isDigit = (Char.ofNat n).isDigit ∧
        ((Char.ofNat n).isDigit = true → (Char.ofNat n).toLower = Char.ofNat n) := by
      decide +kernel
    have hread := hall ⟨c.toNat, hc⟩
    rw [Char.ofNat_toNat] at hread
    rw [h.ascii c hc]
    exact hread
  · obtain ⟨hcolon, hdigit⟩ := h.above c (Nat.le_of_not_lt hc)
    obtain ⟨hne, hnot⟩ := ne_delimiter (Nat.le_of_not_lt hc)
    refine ⟨iff_of_false hcolon hne, by rw [hdigit, hnot], fun hd => ?_⟩
    rw [hnot] at hd
    exact absurd hd Bool.false_ne_true

/-- The colon is its own lower case. -/
theorem LowerCases.colon : toLower (String.singleton ':') = String.singleton ':' := by
  rw [← String.toList_inj, h.map, String.toList_singleton, List.map_singleton,
    (h.delimiters ':').1.mpr rfl]

/-- A port is its own lower case. -/
theorem LowerCases.port {p : String} (hp : isPort p = true) : toLower p = p := by
  rw [← String.toList_inj, h.map]
  exact (List.map_congr_left fun c hc => (h.delimiters c).2.2 (List.all_eq_true.mp hp c hc)).trans
    (List.map_id' _)

/-- Lower case leaves the port alone. -/
theorem LowerCases.joinPort (name : String) (port : Option String)
    (hport : ∀ p, port = some p → isPort p = true) :
    toLower (joinPort name port) = HostPort.joinPort (toLower name) port := by
  cases port with
  | none => rfl
  | some p =>
      rw [HostPort.joinPort, h.append, h.append, h.colon, h.port (hport p rfl)]
      rfl

/-- Lower case makes no port of what is none. -/
theorem LowerCases.splitPort_eq_none {host : String} (hnone : (splitPort host).2 = none) :
    (splitPort (toLower host)).2 = none := by
  by_contra hsome
  obtain ⟨p, hp⟩ := Option.ne_none_iff_exists'.mp hsome
  obtain ⟨htext, hport⟩ := splitPort_eq_some_iff.mp (Prod.ext rfl hp)
  -- the text of a port in lower case has only itself to come from
  have hmap := congrArg String.toList htext
  rw [h.map, HostPort.joinPort, String.toList_append, String.toList_append, String.toList_singleton,
    List.append_assoc, List.singleton_append] at hmap
  obtain ⟨a, b, hab, -, hb⟩ := List.map_eq_append_iff.mp hmap
  obtain ⟨c, q, rfl, hc, hq⟩ := List.map_eq_cons_iff.mp hb
  obtain rfl := (h.delimiters c).1.mp hc
  have hsplit : splitPort host = (String.ofList a, some (String.ofList q)) := by
    refine splitPort_eq_some_iff.mpr ⟨?_, ?_⟩
    · rw [← String.toList_inj, hab, HostPort.joinPort]
      simp
    · rw [isPort, String.toList_ofList, List.all_eq_true]
      intro d hd
      rw [← (h.delimiters d).2.1]
      exact List.all_eq_true.mp hport _ (hq ▸ List.mem_map_of_mem hd)
  rw [hsplit] at hnone
  exact Option.some_ne_none _ hnone

/-- What lower case does to a host it does to the name. -/
theorem LowerCases.splitPort_toLower (host : String) :
    splitPort (toLower host) = (toLower (splitPort host).1, (splitPort host).2) := by
  rcases hport : (splitPort host).2 with _ | p
  · rw [fst_splitPort_of_none hport]
    exact Prod.ext (fst_splitPort_of_none (h.splitPort_eq_none hport)) (h.splitPort_eq_none hport)
  · obtain ⟨htext, hp⟩ := splitPort_eq_some_iff.mp (Prod.ext rfl hport)
    have hlower := h.joinPort (splitPort host).1 (some p) fun q hq => Option.some.inj hq ▸ hp
    rw [htext, splitPort_joinPort_some hp, hlower, splitPort_joinPort_some hp]

/-- Two hosts are the same in lower case if the names are and the ports are the same. -/
theorem LowerCases.eq_iff {host host' : String} :
    toLower host = toLower host' ↔
      toLower (splitPort host).1 = toLower (splitPort host').1 ∧
        (splitPort host).2 = (splitPort host').2 := by
  rw [← splitPort_inj, h.splitPort_toLower, h.splitPort_toLower, Prod.mk.injEq]

end Lower

end HostPort
