import Mathlib.Data.Finset.Card
import Mathlib.Data.List.Basic
import Mathlib.Data.List.Chain
import Mathlib.Logic.Relation

-- Keys that need other keys, searched depth first. What is stored is passed over, what is missing is made
-- once all that it needs is there.
namespace Lifespan
open Relation

-- A search through the keys that are still to be done, below those on the path, newest first. It tells which keys
-- are made, in this order, and which are tried at all; and where it is broken off by a key that is on the path
-- already, it tells the way down to there.
inductive Search (needs : String → List String) :
    List String → List String → List String → List String → List String → Option (List String × String) → Prop
  | nil {path stored : List String} : Search needs path stored [] [] [] none
  | known {path stored todo made tried : List String} (there : key ∈ stored) (more : Search needs path stored todo made tried broken) :
      Search needs path stored (key :: todo) made tried broken
  | cyclic {path stored todo : List String} (missing : key ∉ stored) (again : key ∈ path) :
      Search needs path stored (key :: todo) [] [] (some ([], key))
  | fails {path stored todo made tried : List String} (missing : key ∉ stored) (fresh : key ∉ path)
      (below : Search needs (key :: path) stored (needs key) made tried (some (down, last))) :
      Search needs path stored (key :: todo) made (key :: tried) (some (key :: down, last))
  | makes {path stored todo made tried later next : List String} (missing : key ∉ stored) (fresh : key ∉ path)
      (below : Search needs (key :: path) stored (needs key) made tried none)
      (more : Search needs path (stored ++ made ++ [key]) todo later next broken) :
      Search needs path stored (key :: todo) (made ++ key :: later) (key :: tried ++ next) broken

def Lacks (needs : String → List String) (stored : List String) (key other : String) : Prop :=
  other ∈ needs key ∧ other ∉ stored

def Reaches (needs : String → List String) (stored : List String) (key other : String) : Prop :=
  key ∉ stored ∧ ReflTransGen (Lacks needs stored) key other

def Circular (needs : String → List String) (stored : List String) (key : String) : Prop :=
  ∃ other, Reaches needs stored key other ∧ TransGen (Lacks needs stored) other other

def Descends (needs : String → List String) (stored there : List String) (key other : String) : Prop :=
  ∃ before after, needs key = before ++ other :: after ∧ other ∉ stored ∧ ∀ need ∈ before, need ∈ there

def Supplied (needs : String → List String) (stored made : List String) : Prop :=
  ∀ earlier key later, made = earlier ++ key :: later → ∀ need ∈ needs key, need ∈ stored ++ earlier

section
variable {needs : String → List String} {path stored whole todo made more tried down : List String} {key other last need : String}
  {broken : Option (List String × String)}

-- Each further step down leaves fewer keys that are not on the path.
theorem search_total (keys : Finset String) (closed : ∀ key ∈ keys, ∀ need ∈ needs key, need ∈ keys)
    (path stored todo : List String) (inside : ∀ key ∈ todo, key ∈ keys) :
    ∃ made tried broken, Search needs path stored todo made tried broken := by
  induction left : (keys.filter (· ∉ path)).card using Nat.strong_induction_on generalizing path stored todo with
  | _ left deeper =>
    subst left
    induction todo generalizing stored with
    | nil => exact ⟨[], [], none, .nil⟩
    | cons key todo ih =>
      have here : key ∈ keys := inside key (List.mem_cons_self ..)
      have rest : ∀ stored, ∃ made tried broken, Search needs path stored todo made tried broken :=
        fun stored => ih stored fun other member => inside other (List.mem_cons_of_mem _ member)
      by_cases there : key ∈ stored
      · obtain ⟨made, tried, broken, search⟩ := rest stored
        exact ⟨made, tried, broken, .known there search⟩
      by_cases again : key ∈ path
      · exact ⟨[], [], _, .cyclic there again⟩
      have fewer : (keys.filter (· ∉ key :: path)).card < (keys.filter (· ∉ path)).card := by
        refine Finset.card_lt_card ⟨fun other => ?_, fun same => ?_⟩
        · simp only [Finset.mem_filter, List.mem_cons, not_or]
          exact fun ⟨inside, _, apart⟩ => ⟨inside, apart⟩
        · have kept := same (Finset.mem_filter.mpr ⟨here, by simpa using again⟩)
          simp at kept
      obtain ⟨made, tried, broken, below⟩ := deeper _ fewer (key :: path) stored (needs key) (closed key here) rfl
      cases broken with
      | some broken => exact ⟨made, _, _, .fails there again below⟩
      | none =>
        obtain ⟨later, next, broken, search⟩ := rest (stored ++ made ++ [key])
        exact ⟨_, _, broken, .makes there again below search⟩

namespace Search

theorem tried_perm (search : Search needs path stored todo made tried broken) :
    tried.Perm (made ++ broken.elim [] Prod.fst) := by
  induction search with
  | nil | cyclic => exact .nil
  | known _ _ ih => exact ih
  | fails _ _ _ ih => exact (ih.cons _).trans List.perm_middle.symm
  | @makes key _ _ _ _ made tried later next _ _ _ _ below more =>
    rw [Option.elim_none, List.append_nil] at below
    have all : (key :: tried ++ next).Perm (key :: made ++ (later ++ _)) := (below.cons key).append more
    rw [List.append_assoc]
    exact all.trans List.perm_middle.symm

theorem tried_fresh (search : Search needs path stored todo made tried broken) :
    tried.Nodup ∧ ∀ key ∈ tried, key ∉ stored ∧ key ∉ path := by
  induction search with
  | nil | cyclic => exact ⟨.nil, nofun⟩
  | known _ _ ih => exact ih
  | fails missing fresh _ ih =>
    obtain ⟨once, apart⟩ := ih
    refine ⟨List.nodup_cons.mpr ⟨fun again => (apart _ again).2 (List.mem_cons_self ..), once⟩, ?_⟩
    rintro other (_ | ⟨_, member⟩)
    · exact ⟨missing, fresh⟩
    · exact ⟨(apart other member).1, fun above => (apart other member).2 (List.mem_cons_of_mem _ above)⟩
  | @makes key broken path stored todo made tried later next missing fresh below more inner outer =>
    obtain ⟨once, apart⟩ := inner
    obtain ⟨twice, beyond⟩ := outer
    have built : ∀ other ∈ tried, other ∈ made := fun other member => by
      simpa using below.tried_perm.subset member
    refine ⟨List.nodup_append.mpr ⟨List.nodup_cons.mpr ⟨fun again => ?_, once⟩, twice, ?_⟩, ?_⟩
    · exact (apart _ again).2 (List.mem_cons_self ..)
    · rintro one (_ | ⟨_, member⟩) other later rfl
      · exact (beyond _ later).1 (by simp)
      · exact (beyond _ later).1 (by simp [built _ member])
    · intro other member
      rcases List.mem_append.mp member with (_ | ⟨_, member⟩) | member
      · exact ⟨missing, fresh⟩
      · exact ⟨(apart other member).1, fun above => (apart other member).2 (List.mem_cons_of_mem _ above)⟩
      · exact ⟨fun there => (beyond other member).1 (by simp [there]), (beyond other member).2⟩

theorem made_tried (search : Search needs path stored todo made tried broken) : ∀ key ∈ made, key ∈ tried :=
  fun _ member => search.tried_perm.symm.subset (List.mem_append_left _ member)

theorem unmade (search : Search needs (key :: path) stored todo made tried broken) (missing : key ∉ stored) : key ∉ stored ++ made :=
  fun there => (List.mem_append.mp there).elim missing fun there =>
    (search.tried_fresh.2 key (search.made_tried key there)).2 (List.mem_cons_self ..)

theorem tried_reached (search : Search needs path stored todo made tried broken) (within : ∀ key ∈ whole, key ∈ stored) :
    ∀ key ∈ tried, ∃ top ∈ todo, Reaches needs whole top key := by
  induction search with
  | nil | cyclic => nofun
  | known _ _ ih =>
    intro key member
    obtain ⟨top, there, reaches⟩ := ih within key member
    exact ⟨top, List.mem_cons_of_mem _ there, reaches⟩
  | fails missing _ _ ih =>
    rintro other (_ | ⟨_, member⟩)
    · exact ⟨_, List.mem_cons_self .., fun there => missing (within _ there), .refl⟩
    · obtain ⟨top, there, lacking, reaches⟩ := ih within other member
      exact ⟨_, List.mem_cons_self .., fun there => missing (within _ there), .head ⟨there, lacking⟩ reaches⟩
  | makes missing _ _ _ inner outer =>
    intro other member
    rcases List.mem_append.mp member with (_ | ⟨_, member⟩) | member
    · exact ⟨_, List.mem_cons_self .., fun there => missing (within _ there), .refl⟩
    · obtain ⟨top, there, lacking, reaches⟩ := inner within other member
      exact ⟨_, List.mem_cons_self .., fun there => missing (within _ there), .head ⟨there, lacking⟩ reaches⟩
    · obtain ⟨top, there, reaches⟩ := outer (fun key old => by simp [within key old]) other member
      exact ⟨top, List.mem_cons_of_mem _ there, reaches⟩

theorem all_there (search : Search needs path stored todo made tried none) : ∀ key ∈ todo, key ∈ stored ++ made := by
  generalize whole : none = broken at search
  induction search with
  | nil => nofun
  | known there _ ih =>
    rintro other (_ | ⟨_, member⟩)
    · exact List.mem_append_left _ there
    · exact ih whole other member
  | cyclic | fails => cases whole
  | makes _ _ _ _ _ outer =>
    rintro other (_ | ⟨_, member⟩)
    · simp
    · simpa [or_assoc] using outer whole other member

end Search

theorem Supplied.append (first : Supplied needs stored made) (second : Supplied needs (stored ++ made) more) :
    Supplied needs stored (made ++ more) := by
  intro earlier key later same need wanted
  rcases List.append_eq_append_iff.mp same with ⟨between, rfl, split⟩ | ⟨between, rfl, split⟩
  · rw [← List.append_assoc]
    exact second between key later split need wanted
  · cases between with
    | nil =>
      have there : need ∈ (stored ++ (earlier ++ [])) ++ [] := second [] key later (by simpa using split.symm) need wanted
      simpa using there
    | cons first between =>
      rw [List.cons_append] at split
      cases split
      exact first earlier key between rfl need wanted

theorem Search.supplied (search : Search needs path stored todo made tried broken) : Supplied needs stored made := by
  have nothing : ∀ stored, Supplied needs stored [] := fun stored earlier key later same => by simp at same
  induction search with
  | nil | cyclic => exact nothing _
  | known _ _ ih | fails _ _ _ ih => exact ih
  | @makes key broken path stored todo made tried later next missing fresh below more inner outer =>
    have one : Supplied needs (stored ++ made) [key] := by
      intro earlier other later same need wanted
      obtain ⟨rfl, rfl, rfl⟩ : earlier = [] ∧ other = key ∧ later = [] := by
        cases earlier <;> simp_all
      simpa using below.all_there need wanted
    have both : Supplied needs stored ((made ++ [key]) ++ later) :=
      (inner.append one).append (by rw [← List.append_assoc]; exact outer)
    simpa using both

theorem Supplied.descends (supplied : Supplied needs stored made) (member : key ∈ made) (lacks : Lacks needs stored key other) :
    other ∈ made ∧ made.idxOf other < made.idxOf key := by
  obtain ⟨earlier, later, rfl, first⟩ := List.eq_append_cons_of_mem member
  have before : other ∈ earlier := (List.mem_append.mp (supplied earlier key later rfl other lacks.1)).resolve_left lacks.2
  refine ⟨List.mem_append_left _ before, ?_⟩
  rw [List.idxOf_append_of_mem before, List.idxOf_append_of_notMem first, List.idxOf_cons_self]
  exact Nat.lt_of_lt_of_le (List.idxOf_lt_length_of_mem before) (Nat.le_add_right ..)

theorem Supplied.reaches (supplied : Supplied needs stored made) (member : key ∈ made)
    (way : TransGen (Lacks needs stored) key other) : other ∈ made ∧ made.idxOf other < made.idxOf key := by
  induction way with
  | single lacks => exact supplied.descends member lacks
  | tail _ lacks ih =>
    obtain ⟨there, less⟩ := supplied.descends ih.1 lacks
    exact ⟨there, Nat.lt_trans less ih.2⟩

theorem Descends.lacks {there : List String} (descends : Descends needs stored there key other) : Lacks needs stored key other := by
  obtain ⟨before, after, same, missing, _⟩ := descends
  exact ⟨by simp [same], missing⟩

-- Where a search is broken off one has come down, always by the first missing key, to one that is on the way already.
theorem Search.descends {there : List String} (search : Search needs path stored todo made tried (some (down, last)))
    (within : ∀ key ∈ whole, key ∈ stored) (beyond : ∀ key ∈ stored ++ made, key ∈ there) :
    (∃ top before after, todo = before ++ top :: after ∧ top ∉ whole ∧ (∀ key ∈ before, key ∈ there) ∧
      (down ++ [last]).head? = some top) ∧ (down ++ [last]).IsChain (Descends needs whole there) ∧ (last ∈ down ∨ last ∈ path) := by
  generalize same : some (down, last) = broken at search
  induction search generalizing down with
  | nil => cases same
  | @known key _ _ stored _ made _ old _ ih =>
    obtain ⟨⟨top, before, after, rfl, missing, passed, first⟩, rest⟩ := ih within beyond same
    refine ⟨⟨top, key :: before, after, rfl, missing, ?_, first⟩, rest⟩
    rintro other (_ | ⟨_, member⟩)
    · exact beyond _ (List.mem_append_left _ old)
    · exact passed other member
  | cyclic missing again =>
    cases same
    exact ⟨⟨_, [], _, rfl, fun old => missing (within _ old), nofun, rfl⟩, .singleton _, .inr again⟩
  | @fails key down last path stored todo made tried missing fresh below ih =>
    cases same
    obtain ⟨⟨top, before, after, needed, lacking, passed, first⟩, way, ends⟩ := ih within beyond rfl
    refine ⟨⟨key, [], _, rfl, fun old => missing (within _ old), nofun, rfl⟩, ?_, ?_⟩
    · refine List.isChain_cons.mpr ⟨fun next head => ?_, way⟩
      cases head.symm.trans first
      exact ⟨before, after, needed, lacking, passed⟩
    · simpa [or_assoc, or_left_comm] using ends
  | @makes key broken path stored todo made tried later next missing fresh below more inner outer =>
    obtain ⟨⟨top, before, after, rfl, lacking, passed, first⟩, rest⟩ := outer (fun key old => by simp [within key old])
      (fun other member => beyond other (by simpa [or_assoc] using member)) same
    refine ⟨⟨top, key :: before, after, rfl, lacking, ?_, first⟩, rest⟩
    rintro other (_ | ⟨_, member⟩)
    · exact beyond _ (by simp)
    · exact passed other member

theorem chain_leads {R : String → String → Prop} (way : List.IsChain R (key :: down ++ [last])) : TransGen R key last := by
  induction down generalizing key with
  | nil => exact .single (List.isChain_pair.mp way)
  | cons next down ih =>
    obtain ⟨first, rest⟩ := List.isChain_cons_cons.mp way
    exact .head first (ih rest)

structure Completed (needs : String → List String) (stored : List String) (key : String) (made tried : List String) : Prop where
  open_ : ¬Circular needs stored key
  whole : ∀ other, other ∈ made ↔ Reaches needs stored key other
  supplied : Supplied needs stored made
  once : tried.Nodup
  succeeded : tried.Perm made

structure BrokenOff (needs : String → List String) (stored : List String) (key : String) (made tried down : List String) (last : String) :
    Prop where
  circular : Circular needs stored key
  first : (down ++ [last]).head? = some key
  way : (down ++ [last]).IsChain (Descends needs stored (stored ++ made))
  again : last ∈ down
  supplied : Supplied needs stored made
  once : tried.Nodup
  succeeded : tried.Perm (made ++ down)

theorem Search.completed (search : Search needs [] stored [key] made tried none) : Completed needs stored key made tried := by
  have here : key ∉ stored → key ∈ made := fun missing => by
    simpa [missing] using search.all_there key (List.mem_singleton_self _)
  have reached : ∀ other, Reaches needs stored key other → other ∈ made := by
    rintro other ⟨missing, way⟩
    rcases reflTransGen_iff_eq_or_transGen.mp way with rfl | way
    · exact here missing
    · exact (search.supplied.reaches (here missing) way).1
  refine ⟨?_, fun other => ⟨fun member => ?_, reached other⟩, search.supplied, search.tried_fresh.1, by simpa using search.tried_perm⟩
  · rintro ⟨other, reaches, circle⟩
    exact Nat.lt_irrefl _ (search.supplied.reaches (reached other reaches) circle).2
  · obtain ⟨top, there, reaches⟩ := search.tried_reached (fun _ old => old) other (search.made_tried other member)
    cases List.mem_singleton.mp there
    exact reaches

theorem Search.brokenOff (search : Search needs [] stored [key] made tried (some (down, last))) :
    BrokenOff needs stored key made tried down last := by
  obtain ⟨⟨top, before, after, split, missing, _, first⟩, way, again | above⟩ := search.descends (fun _ old => old) fun _ old => old
  · obtain ⟨rfl, rfl, rfl⟩ : before = [] ∧ top = key ∧ after = [] := by cases before <;> simp_all
    refine ⟨?_, first, way, again, search.supplied, search.tried_fresh.1, search.tried_perm⟩
    have lacking : (down ++ [last]).IsChain (Lacks needs stored) := way.imp fun _ _ descends => descends.lacks
    obtain ⟨before, after, rfl⟩ := List.append_of_mem again
    refine ⟨last, ⟨missing, ?_⟩, ?_⟩
    · cases before with
      | nil => cases first; exact .refl
      | cons next before =>
        cases first
        have down : List.IsChain (Lacks needs stored) (top :: before ++ [last]) :=
          List.IsChain.prefix lacking ⟨after ++ [last], by simp⟩
        exact (chain_leads down).to_reflTransGen
    · have round : List.IsChain (Lacks needs stored) (last :: after ++ [last]) :=
        List.IsChain.suffix lacking ⟨before, by simp⟩
      exact chain_leads round
  · cases above

end
end Lifespan
