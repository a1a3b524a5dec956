/-
  Where a path leads from a directory once its `..` are resolved: some levels up, and down again by
  names (`Route`). `resolve_append` is the rule for a path that is joined to a directory; a joined
  path leads to a child of the directory exactly if it comes down by the names that it went up
  (`isChild_follow_iff`).
-/
import GoudaMatrix.Lib.FileSystem

namespace GoudaMatrix.Lib

/-- The levels that a path goes up, and the names by which it goes down from there. -/
structure Route where
  up : Nat
  down : Path
deriving DecidableEq, Repr

namespace Route

/-- The route with one more component; a `..` takes back the last name. -/
def step (route : Route) (name : String) : Route :=
  if name = ".." then
    match route.down with
    | [] => ⟨route.up + 1, []⟩
    | first :: down => ⟨route.up, (first :: down).dropLast⟩
  else ⟨route.up, route.down ++ [name]⟩

/-- Where the route leads from a directory. -/
def follow (route : Route) (dir : Path) : Path :=
  dir.take (dir.length - route.up) ++ route.down

theorem enter_follow (route : Route) (dir : Path) (name : String) :
    Path.enter (route.follow dir) name = (route.step name).follow dir := by
  unfold Path.enter step follow
  split
  · cases hdown : route.down with
    | nil =>
      have hlength : min (min (dir.length - route.up) dir.length - 1) (dir.length - route.up)
          = dir.length - (route.up + 1) := by omega
      rw [List.append_nil, List.dropLast_eq_take, List.take_take, List.length_take, hlength]
      exact (List.append_nil _).symm
    | cons first down => exact List.dropLast_append_of_ne_nil (by simp)
  · exact List.append_assoc _ _ _

/-- The route leads to a child exactly if it comes down by the names that it went up. -/
theorem isChild_follow_iff (route : Route) (dir : Path) (name : String) :
    route.follow dir = dir ++ [name] ↔
      route.down = dir.drop (dir.length - route.up) ++ [name] := by
  have hdir : dir ++ [name] = dir.take (dir.length - route.up)
      ++ (dir.drop (dir.length - route.up) ++ [name]) := by
    rw [← List.append_assoc, List.take_append_drop]
  rw [hdir]
  exact List.append_right_inj _

/-- From a child of the directory, the route leads to a place below the directory exactly if it
    goes not up, or comes down by the names that it went up and at least one more. -/
theorem isBelow_follow_iff (route : Route) (dir : Path) (child : String) :
    (∃ names, names ≠ [] ∧ route.follow (dir ++ [child]) = dir ++ names) ↔
      route.up = 0 ∨
        ∃ names, names ≠ [] ∧ route.down = dir.drop (dir.length + 1 - route.up) ++ names := by
  unfold follow
  rw [List.length_append, List.length_singleton]
  cases hup : route.up with
  | zero =>
    refine ⟨fun _ => .inl rfl, fun _ => ⟨child :: route.down, by simp, ?_⟩⟩
    rw [Nat.sub_zero, List.take_of_length_le (by simp), List.append_assoc]
    rfl
  | succ levels =>
    have htake : (dir ++ [child]).take (dir.length + 1 - (levels + 1))
        = dir.take (dir.length + 1 - (levels + 1)) := List.take_append_of_le_length (by omega)
    rw [htake, or_iff_right (Nat.succ_ne_zero levels)]
    refine exists_congr fun names => and_congr_right fun _ => ?_
    have hdir : dir ++ names = dir.take (dir.length + 1 - (levels + 1))
        ++ (dir.drop (dir.length + 1 - (levels + 1)) ++ names) := by
      rw [← List.append_assoc, List.take_append_drop]
    rw [hdir]
    exact List.append_right_inj _

end Route

namespace Path

/-- The route of a path. -/
def route (p : Path) : Route := p.foldl Route.step ⟨0, []⟩

theorem foldl_enter (p dir : Path) (route : Route) :
    p.foldl enter (route.follow dir) = (p.foldl Route.step route).follow dir := by
  induction p generalizing route with
  | nil => rfl
  | cons name p ih => rw [List.foldl_cons, List.foldl_cons, Route.enter_follow, ih]

/-- A joined path is followed from the resolved directory. -/
theorem resolve_append (dir p : Path) : resolve (dir ++ p) = (route p).follow (resolve dir) := by
  have hdir : (⟨0, []⟩ : Route).follow (resolve dir) = resolve dir := by simp [Route.follow]
  have hwalk := foldl_enter p (resolve dir) ⟨0, []⟩
  rw [hdir] at hwalk
  rw [resolve, List.foldl_append]
  exact hwalk

/-- A path without `..` goes down by its names. -/
theorem route_of_names {p : Path} (h : ".." ∉ p) : route p = ⟨0, p⟩ := by
  have hstep : ∀ down, p.foldl Route.step ⟨0, down⟩ = ⟨0, down ++ p⟩ := by
    induction p with
    | nil => simp
    | cons name p ih =>
      intro down
      rw [List.mem_cons, not_or] at h
      rw [List.foldl_cons, Route.step, if_neg (Ne.symm h.1), ih h.2, List.append_assoc]
      rfl
  exact hstep []

end Path

end GoudaMatrix.Lib
