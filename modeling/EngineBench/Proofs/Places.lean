-- The places in a JSON value, at every depth, and what it means that a value is changed at one of
-- them and nowhere else.
import EngineBench.Proofs.Overrides

namespace EngineBench.JsonValue

/-- A step from a value to one of its parts. -/
inductive Step where
  | member (name : String)
  | item (i : Nat)
  deriving DecidableEq

def child? : Step → JsonValue → Option JsonValue
  | .member name, v => v.member? name
  | .item i, .list items => items[i]?
  | .item _, _ => none

/-- What stands at a place of a value, if the value has that place. -/
def at? : List Step → JsonValue → Option JsonValue
  | [], v => some v
  | step :: place, v => (child? step v).bind (at? place)

theorem at?_append (place rest : List Step) (v : JsonValue) :
    v.at? (place ++ rest) = (v.at? place).bind (at? rest) := by
  induction place generalizing v with
  | nil => rfl
  | cons step place ih =>
    rw [List.cons_append, at?, at?, Option.bind_assoc]
    exact congrArg _ (funext ih)

theorem at?_setMember {v : JsonValue} (h : v.isObject = true) (name : String) (x : JsonValue)
    (step : Step) (place : List Step) :
    (v.setMember name x).at? (step :: place) =
      if step = .member name then x.at? place else v.at? (step :: place) := by
  cases step with
  | member k =>
    rw [at?, child?, member?_setMember h]
    by_cases hk : k = name
    · rw [if_pos hk, if_pos (congrArg Step.member hk)]
      rfl
    · rw [if_neg hk, if_neg (fun hsame => hk (Step.member.inj hsame))]
      rfl
  | item i =>
    cases v with
    | object members => rfl
    | _ => cases h

/-- `w` is `v` with `x` at a place: what stands at this place and below it comes from `x`, and what
stands neither below it nor on the way there is what stood there before. -/
structure ChangedAt (place : List Step) (x v w : JsonValue) : Prop where
  there : ∀ rest, w.at? (place ++ rest) = x.at? rest
  elsewhere : ∀ other, ¬ place <+: other → ¬ other <+: place → w.at? other = v.at? other

theorem changedAt_setMember {v : JsonValue} (h : v.isObject = true) (name : String)
    (x : JsonValue) : ChangedAt [.member name] x v (v.setMember name x) where
  there rest := by
    rw [List.singleton_append, at?_setMember h, if_pos rfl]
  elsewhere
    | [], _, hway => (hway (List.nil_prefix)).elim
    | step :: other, hbelow, _ => by
      rw [at?_setMember h, if_neg]
      rintro rfl
      exact hbelow (List.prefix_append [_] other)

/-- A change in a member is a change of the whole. -/
theorem ChangedAt.setMember {place : List Step} {name : String} {x v p q : JsonValue}
    (h : ChangedAt place x p q) (hp : v.member? name = some p) :
    ChangedAt (.member name :: place) x v (v.setMember name q) where
  there rest := by
    rw [List.cons_append, at?_setMember (isObject_of_member? hp), if_pos rfl]
    exact h.there rest
  elsewhere
    | [], _, hway => (hway (List.nil_prefix)).elim
    | step :: other, hbelow, hway => by
      rw [at?_setMember (isObject_of_member? hp)]
      split
      · rename_i hstep
        subst hstep
        rw [h.elsewhere other, at?, child?, hp]
        · rfl
        · exact fun hprefix => hbelow (List.cons_prefix_cons.mpr ⟨rfl, hprefix⟩)
        · exact fun hprefix => hway (List.cons_prefix_cons.mpr ⟨rfl, hprefix⟩)
      · rfl

end EngineBench.JsonValue
