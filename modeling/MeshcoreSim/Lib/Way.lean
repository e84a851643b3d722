import Mathlib.Algebra.Order.AbsoluteValue.Basic
import Mathlib.Data.List.Basic

/-!
Ways through a graph, with the list of the nodes between.

The first and the last node of a way are any nodes; those between have to forward.

* `Way.snoc`, `Way.reverse` — a way goes on, and back where the links do.
* `Way.lift` — a way that stays among the images of a map comes from a way between the originals.
* `Way.potential_le` — a potential that changes by at most one over a link bounds a way from below.
* `Way.trans` — two ways with a forwarding node between are one.
-/

namespace MeshcoreSim.Lib

variable {ι : Type} {links : ι → ι → Prop} {forwards : ι → Prop} {a b c : ι} {via via' : List ι}

/-- A way from one node over others to a last one. -/
inductive Way (links : ι → ι → Prop) (forwards : ι → Prop) : ι → ι → List ι → Prop
  | direct {a b : ι} (link : links a b) : Way links forwards a b []
  | through {a b r : ι} {via : List ι} (link : links a r) (forwarding : forwards r)
      (rest : Way links forwards r b via) : Way links forwards a b (r :: via)

namespace Way

theorem trans (first : Way links forwards a b via) (forwarding : forwards b)
    (second : Way links forwards b c via') : Way links forwards a c (via ++ b :: via') := by
  induction first with
  | direct link => exact .through link forwarding second
  | through link forwards' _ ih => exact .through link forwards' (ih forwarding second)

theorem mono {links' : ι → ι → Prop} {forwards' : ι → Prop}
    (linked : ∀ i j, links i j → links' i j) (more : ∀ i, forwards i → forwards' i)
    (way : Way links forwards a b via) : Way links' forwards' a b via := by
  induction way with
  | direct link => exact .direct (linked _ _ link)
  | through link forwarding _ ih => exact .through (linked _ _ link) (more _ forwarding) ih

/-- A way goes on over its last node. -/
theorem snoc (way : Way links forwards a b via) (forwarding : forwards b) (link : links b c) :
    Way links forwards a c (via ++ [b]) :=
  way.trans forwarding (.direct link)

/-- A way goes back where every link does. -/
theorem reverse (back : ∀ i j, links i j → links j i) (way : Way links forwards a b via) :
    Way links forwards b a via.reverse := by
  induction way with
  | direct link => exact .direct (back _ _ link)
  | through link forwarding _ ih =>
      rw [List.reverse_cons]
      exact ih.snoc forwarding (back _ _ link)

/-- A way from an image goes over images, where every link from one leads to another. -/
theorem lift {κ : Type} {f : κ → ι} {links' : κ → κ → Prop} {a : κ}
    (lifts : ∀ p j, links (f p) j → ∃ q, f q = j ∧ links' p q)
    (way : Way links forwards (f a) b via) :
    ∃ q between, f q = b ∧ via = between.map f ∧
      Way links' (fun p => forwards (f p)) a q between := by
  generalize start : f a = i at way
  induction way generalizing a with
  | direct link =>
      subst start
      obtain ⟨q, isEnd, link'⟩ := lifts a _ link
      exact ⟨q, [], isEnd, rfl, .direct link'⟩
  | through link forwarding _ ih =>
      subst start
      obtain ⟨r, rfl, link'⟩ := lifts a _ link
      obtain ⟨q, between, isEnd, rfl, rest⟩ := ih rfl
      exact ⟨q, r :: between, isEnd, rfl, .through link' forwarding rest⟩

/-- A way of `n` links changes a potential by at most `n`. -/
theorem potential_le {f : ι → ℤ} (slow : ∀ i j, links i j → |f j - f i| ≤ 1)
    (way : Way links forwards a b via) : |f b - f a| ≤ via.length + 1 := by
  induction way with
  | direct link => simpa using slow _ _ link
  | @through a b r via link _ _ ih =>
      have first := slow _ _ link
      have both : |f b - f a| ≤ |f b - f r| + |f r - f a| := abs_sub_le _ _ _
      rw [List.length_cons]
      push_cast
      omega

end Way

end MeshcoreSim.Lib
