import Mathlib
import SmoothOpt.Proofs.Problem.SecondOrder
import SmoothOpt.Suite.Registry

/-!
The derivatives of the test problems are exact.

The functions of the fixed problems are put together from the variables, one rule of differentiation
after another, and so are the entries of their gradients. The chained problem is a sum over the
links of the chain. A variable belongs to at most two links, the one behind it and the one ahead of
it, so each entry of its gradient has two parts.
-/
namespace SmoothOpt.Suite

open Scalar Linear

theorem product_real (v : List ℝ) : product v = v.prod := by
  rw [product, List.prod_eq_foldl]

/-- The product of the entries of a vector whose indices pass a test. -/
theorem product_filter_finRange {n : Nat} (x : Vector ℝ n) (p : Fin n → Prop) [DecidablePred p] :
    product (((List.finRange n).filter fun k => p k).map x.get) =
      ∏ k ∈ Finset.univ.filter p, x.get k := by
  rw [product_real, ← List.prod_toFinset _ ((List.nodup_finRange n).filter _), List.toFinset_filter,
    List.toFinset_finRange]
  simp

theorem product_toList {n : Nat} (x : Vector ℝ n) : product x.toList = ∏ k, x.get k := by
  rw [product_real, toList_eq_map_get]
  exact (Fin.prod_univ_def _).symm

namespace Hs071

noncomputable def functions : Functions ℝ ⟨4, 1, 1⟩ where
  objective := objective
  equalities x := single (equality x)
  inequalities x := single (inequality x)
  gradient := gradient
  equalityJacobian x := single (equalityGradient x)
  inequalityJacobian x := single (inequalityGradient x)

variable (x : Vector ℝ 4)

theorem objective_gradient : GradientAt objective (gradient x).get x := by
  have x0 := GradientAt.coordinate 0 x
  have x1 := GradientAt.coordinate 1 x
  have x2 := GradientAt.coordinate 2 x
  have x3 := GradientAt.coordinate 3 x
  refine (((x0.mul x3).mul ((x0.add x1).add x2)).add x2).congr (fun _ => rfl) fun i => ?_
  fin_cases i <;> norm_num [gradient, Vector.get, Pi.single_apply, Fin.ext_iff] <;> ring

/-- The second derivatives of the objective, row by row. -/
theorem objective_hessian : HessianAt objective (objectiveHessian x).entry x := by
  have x0 := GradientAt.coordinate 0 x
  have x1 := GradientAt.coordinate 1 x
  have x2 := GradientAt.coordinate 2 x
  have x3 := GradientAt.coordinate 3 x
  refine ⟨fun u => (gradient u).get, objective_gradient, fun i => ?_⟩
  fin_cases i
  · refine (x3.mul (((x0.const_mul 2.0).add x1).add x2)).congr (fun _ => rfl) fun j => ?_
    fin_cases j <;>
      norm_num [objectiveHessian, Dense.entry, Vector.get, Pi.single_apply, Fin.ext_iff]
    ring
  · refine (x0.mul x3).congr (fun _ => rfl) fun j => ?_
    fin_cases j <;>
      norm_num [objectiveHessian, Dense.entry, Vector.get, Pi.single_apply, Fin.ext_iff]
  · refine ((x0.mul x3).add (.const 1 x)).congr (fun _ => rfl) fun j => ?_
    fin_cases j <;>
      norm_num [objectiveHessian, Dense.entry, Vector.get, Pi.single_apply, Fin.ext_iff]
  · refine (x0.mul ((x0.add x1).add x2)).congr (fun _ => rfl) fun j => ?_
    fin_cases j <;>
      norm_num [objectiveHessian, Dense.entry, Vector.get, Pi.single_apply, Fin.ext_iff]
    ring

theorem get_equalityGradient (i : Fin 4) : (equalityGradient x).get i = 2 * x.get i := by
  rw [equalityGradient, Vector.get_map]
  norm_num

theorem equality_gradient : GradientAt equality (equalityGradient x).get x := by
  have squares : GradientAt (fun u => ∑ k, u.get k * u.get k)
      (∑ k, (x.get k • Pi.single k 1 + x.get k • Pi.single k 1)) x :=
    .sum fun k _ => (GradientAt.coordinate k x).mul (.coordinate k x)
  refine (squares.sub (.const 40.0 x)).congr (fun u => ?_) fun i => ?_
  · rw [equality, sum_real, toList_eq_map_get, List.map_map, Fin.sum_univ_def]
    rfl
  · rw [get_equalityGradient]
    simp [Finset.sum_apply, Finset.sum_add_distrib, Pi.single_apply, two_mul]

theorem equality_hessian : HessianAt equality (fun i j => if i = j then 2 else 0) x := by
  refine ⟨fun u => (equalityGradient u).get, equality_gradient, fun i => ?_⟩
  refine ((GradientAt.coordinate i x).const_mul 2).congr (get_equalityGradient · i) fun j => ?_
  simp [Pi.single_apply, eq_comm]

theorem others_eq (i j : Fin 4) :
    others x i j = ∏ k ∈ (Finset.univ.erase i).erase j, x.get k := by
  rw [others, product_filter_finRange]
  refine Finset.prod_congr ?_ fun _ _ => rfl
  ext k
  simp [and_comm]

theorem inequality_gradient_entry :
    GradientAt inequality (fun i => ∏ k ∈ Finset.univ.erase i, x.get k) x :=
  (GradientAt.product Finset.univ x).congr product_toList fun i => (if_pos (Finset.mem_univ i)).symm

/-- Without a zero the quotients are the products without one variable. -/
theorem inequality_gradient (nonzero : ∀ i, x.get i ≠ 0) :
    GradientAt inequality (inequalityGradient x).get x := by
  refine (inequality_gradient_entry x).congr (fun _ => rfl) fun i => ?_
  rw [inequalityGradient, Vector.get_map, product_toList,
    ← Finset.prod_erase_mul _ _ (Finset.mem_univ i)]
  exact mul_div_cancel_right₀ _ (nonzero i)

theorem inequality_hessian :
    HessianAt inequality (fun i j => if i = j then 0 else others x i j) x := by
  -- the gradient by products exists everywhere, the one by quotients only away from zeros
  refine ⟨_, inequality_gradient_entry, fun i => ?_⟩
  refine (GradientAt.product (Finset.univ.erase i) x).congr (fun _ => rfl) fun j => ?_
  simp [others_eq, eq_comm]

theorem hessian_symmetric (w yc yd : ℝ) : (hessian x w yc yd).Symmetric := by
  have objective : (objectiveHessian x).Symmetric := by
    intro i j
    fin_cases i <;> fin_cases j <;> rfl
  intro i j
  simp only [hessian, Dense.entry_ofFn, others_eq, eq_comm (a := i), objective i j,
    Finset.erase_right_comm (a := i)]

theorem evaluates : (problem : Problem ℝ Unit _).Evaluates functions
    fun x w yc yd => hessian x w (yc.get 0) (yd.get 0) where
  objective _ _ := leaves_good _
  equalities _ _ := leaves_good _
  inequalities _ _ := leaves_good _
  gradient _ _ := leaves_good _
  equalityJacobian _ _ := leaves_good _
  inequalityJacobian _ _ := leaves_good _
  providesHessian := rfl
  hessian _ _ _ _ _ := leaves_good _ _

theorem hessiansAt :
    functions.HessiansAt (fun w yc yd => hessian x w (yc.get 0) (yd.get 0)) x where
  symmetric w yc yd := hessian_symmetric x w _ _
  weighted := by
    refine ⟨_, fun _ i k => if i = k then 2 else 0, fun _ i k => if i = k then 0 else others x i k,
      objective_hessian x, fun r => ?_, fun j => ?_, ?_⟩
    · rw [Subsingleton.elim r 0]
      exact equality_hessian x
    · rw [Subsingleton.elim j 0]
      exact inequality_hessian x
    · intro w yc yd i k
      rw [hessian, Dense.entry_ofFn, Fin.sum_univ_one, Fin.sum_univ_one]
      dsimp only
      split_ifs
      · norm_num
        ring
      · ring

theorem exactAt (nonzero : ∀ i, x.get i ≠ 0) : (problem : Problem ℝ Unit _).ExactAt x := by
  refine ⟨_, _, evaluates, ⟨objective_gradient x, fun r => ?_, fun j => ?_⟩, hessiansAt x⟩
  · rw [Subsingleton.elim r 0]
    exact equality_gradient x
  · rw [Subsingleton.elim j 0]
    exact inequality_gradient x nonzero

end Hs071

namespace Hs035

noncomputable def functions : Functions ℝ ⟨3, 0, 1⟩ where
  objective := objective
  equalities _ := noEntries
  inequalities x := single (inequality x)
  gradient := gradient
  equalityJacobian _ := noEntries
  inequalityJacobian _ := single inequalityGradient

variable (x : Vector ℝ 3)

theorem objective_gradient : GradientAt objective (gradient x).get x := by
  have x0 := GradientAt.coordinate 0 x
  have x1 := GradientAt.coordinate 1 x
  have x2 := GradientAt.coordinate 2 x
  have linear := (((GradientAt.const 9.0 x).sub (x0.const_mul 8.0)).sub (x1.const_mul 6.0)).sub
    (x2.const_mul 4.0)
  have squares := ((linear.add ((x0.const_mul 2.0).mul x0)).add ((x1.const_mul 2.0).mul x1)).add
    (x2.mul x2)
  refine ((squares.add ((x0.const_mul 2.0).mul x1)).add ((x0.const_mul 2.0).mul x2)).congr
    (fun _ => rfl) fun i => ?_
  fin_cases i <;> norm_num [gradient, Vector.get, Pi.single_apply, Fin.ext_iff] <;> ring

/-- The second derivatives of the objective, row by row. -/
theorem objective_hessian : HessianAt objective (hessian 1).entry x := by
  have x0 := GradientAt.coordinate 0 x
  have x1 := GradientAt.coordinate 1 x
  have x2 := GradientAt.coordinate 2 x
  refine ⟨fun u => (gradient u).get, objective_gradient, fun i => ?_⟩
  fin_cases i
  · refine ((((GradientAt.const (-8.0) x).add (x0.const_mul 4.0)).add (x1.const_mul 2.0)).add
      (x2.const_mul 2.0)).congr (fun _ => rfl) fun j => ?_
    rw [hessian, Dense.entry_scale]
    fin_cases j <;> norm_num [Dense.entry, Vector.get, Pi.single_apply, Fin.ext_iff]
  · refine (((GradientAt.const (-6.0) x).add (x1.const_mul 4.0)).add (x0.const_mul 2.0)).congr
      (fun _ => rfl) fun j => ?_
    rw [hessian, Dense.entry_scale]
    fin_cases j <;> norm_num [Dense.entry, Vector.get, Pi.single_apply, Fin.ext_iff]
  · refine (((GradientAt.const (-4.0) x).add (x2.const_mul 2.0)).add (x0.const_mul 2.0)).congr
      (fun _ => rfl) fun j => ?_
    rw [hessian, Dense.entry_scale]
    fin_cases j <;> norm_num [Dense.entry, Vector.get, Pi.single_apply, Fin.ext_iff]

theorem inequality_gradient : GradientAt inequality inequalityGradient.get x := by
  have x0 := GradientAt.coordinate 0 x
  have x1 := GradientAt.coordinate 1 x
  have x2 := GradientAt.coordinate 2 x
  refine ((x0.add x1).add (x2.const_mul 2.0)).congr (fun _ => rfl) fun i => ?_
  fin_cases i <;> norm_num [inequalityGradient, Vector.get, Pi.single_apply, Fin.ext_iff]

theorem evaluates : (problem : Problem ℝ Unit _).Evaluates functions fun _ w _ _ => hessian w where
  objective _ _ := leaves_good _
  equalities _ _ := leaves_silent _
  inequalities _ _ := leaves_good _
  gradient _ _ := leaves_good _
  equalityJacobian _ _ := leaves_silent _
  inequalityJacobian _ _ := leaves_good _
  providesHessian := rfl
  hessian _ _ _ _ _ := leaves_good _ _

theorem hessiansAt : functions.HessiansAt (fun w _ _ => hessian w) x where
  symmetric w _ _ := by
    intro i j
    rw [hessian, Dense.entry_scale, Dense.entry_scale]
    fin_cases i <;> fin_cases j <;> rfl
  weighted := by
    refine ⟨_, finZeroElim, fun _ => 0, objective_hessian x, finZeroElim, fun j => ?_, ?_⟩
    · rw [Subsingleton.elim j 0]
      exact .of_constant inequality_gradient x
    · intro w yc yd i k
      rw [hessian, hessian, Dense.entry_scale, Dense.entry_scale]
      simp [mul_comm]

theorem exactAt : (problem : Problem ℝ Unit _).ExactAt x := by
  refine ⟨_, _, evaluates, ⟨objective_gradient x, finZeroElim, fun j => ?_⟩, hessiansAt x⟩
  rw [Subsingleton.elim j 0]
  exact inequality_gradient x

end Hs035

namespace Hs006

noncomputable def functions : Functions ℝ ⟨2, 1, 0⟩ where
  objective := objective
  equalities x := single (equality x)
  inequalities _ := noEntries
  gradient := gradient
  equalityJacobian x := single (equalityGradient x)
  inequalityJacobian _ := noEntries

variable (x : Vector ℝ 2)

theorem objective_gradient : GradientAt objective (gradient x).get x := by
  have distance := (GradientAt.const 1 x).sub (.coordinate 0 x)
  refine (distance.mul distance).congr (fun _ => rfl) fun i => ?_
  fin_cases i <;> norm_num [gradient, Vector.get, Pi.single_apply, Fin.ext_iff]
  ring

theorem objective_hessian : HessianAt objective (hessian 1 0).entry x := by
  have distance := (GradientAt.const 1 x).sub (.coordinate 0 x)
  refine ⟨fun u => (gradient u).get, objective_gradient, fun i => ?_⟩
  fin_cases i
  · refine (distance.const_mul (-2.0)).congr (fun _ => rfl) fun j => ?_
    fin_cases j <;> norm_num [hessian, Dense.entry, Vector.get, Pi.single_apply, Fin.ext_iff]
  · refine (GradientAt.const 0 x).congr (fun _ => rfl) fun j => ?_
    fin_cases j <;> rfl

theorem equality_gradient : GradientAt equality (equalityGradient x).get x := by
  have x0 := GradientAt.coordinate 0 x
  have x1 := GradientAt.coordinate 1 x
  refine ((x1.sub (x0.mul x0)).const_mul 10.0).congr (fun _ => rfl) fun i => ?_
  fin_cases i <;> norm_num [equalityGradient, Vector.get, Pi.single_apply, Fin.ext_iff]
  ring

theorem equality_hessian : HessianAt equality (hessian 0 1).entry x := by
  refine ⟨fun u => (equalityGradient u).get, equality_gradient, fun i => ?_⟩
  fin_cases i
  · refine ((GradientAt.coordinate 0 x).const_mul (-20.0)).congr (fun _ => rfl) fun j => ?_
    fin_cases j <;> norm_num [hessian, Dense.entry, Vector.get, Pi.single_apply, Fin.ext_iff]
  · refine (GradientAt.const 10.0 x).congr (fun _ => rfl) fun j => ?_
    fin_cases j <;> rfl

theorem evaluates : (problem : Problem ℝ Unit _).Evaluates functions
    fun _ w yc _ => hessian w (yc.get 0) where
  objective _ _ := leaves_good _
  equalities _ _ := leaves_good _
  inequalities _ _ := leaves_silent _
  gradient _ _ := leaves_good _
  equalityJacobian _ _ := leaves_good _
  inequalityJacobian _ _ := leaves_silent _
  providesHessian := rfl
  hessian _ _ _ _ _ := leaves_good _ _

theorem hessiansAt : functions.HessiansAt (fun w yc _ => hessian w (yc.get 0)) x where
  symmetric w yc _ := by
    intro i j
    fin_cases i <;> fin_cases j <;> rfl
  weighted := by
    refine ⟨_, fun _ => (hessian 0 1).entry, finZeroElim, objective_hessian x, fun r => ?_,
      finZeroElim, ?_⟩
    · rw [Subsingleton.elim r 0]
      exact equality_hessian x
    · intro w yc yd i k
      fin_cases i <;> fin_cases k <;> norm_num [hessian, Dense.entry, Vector.get]
      ring

theorem exactAt : (problem : Problem ℝ Unit _).ExactAt x := by
  refine ⟨_, _, evaluates, ⟨objective_gradient x, fun r => ?_, finZeroElim⟩, hessiansAt x⟩
  rw [Subsingleton.elim r 0]
  exact equality_gradient x

end Hs006

namespace Rosenbrock

variable {n : Nat}

noncomputable def functions (n : Nat) : Functions ℝ ⟨n, 0, 0⟩ where
  objective := objective
  equalities _ := noEntries
  inequalities _ := noEntries
  gradient := gradient
  equalityJacobian _ := noEntries
  inequalityJacobian _ := noEntries

section Links

variable (x : Vector ℝ n)

def unit (i : Nat) (h : i < n) : Fin n → ℝ := Pi.single ⟨i, h⟩ 1

theorem unit_apply (i : Nat) (h : i < n) (k : Fin n) :
    unit i h k = if k.val = i then 1 else 0 := by
  simp [unit, Pi.single_apply, Fin.ext_iff]

theorem link_gradient (i : Nat) (h : i + 1 < n) :
    GradientAt (fun u => link u i h)
      (unit (i + 1) h -
        (2 * x.get ⟨i, Nat.lt_of_succ_lt h⟩) • unit i (Nat.lt_of_succ_lt h)) x := by
  have here := GradientAt.coordinate ⟨i, Nat.lt_of_succ_lt h⟩ x
  have next := GradientAt.coordinate ⟨i + 1, h⟩ x
  refine (next.sub (here.mul here)).congr (fun _ => rfl) fun k => ?_
  simp only [unit, Pi.sub_apply, Pi.add_apply, Pi.smul_apply, smul_eq_mul]
  ring

/-- What a link adds to the entry of the variable at its near end. -/
noncomputable def nearSlope (i : Nat) (h : i + 1 < n) : ℝ :=
  -400.0 * x.get ⟨i, Nat.lt_of_succ_lt h⟩ * link x i h -
    2.0 * (1 - x.get ⟨i, Nat.lt_of_succ_lt h⟩)

theorem linkCost_gradient (i : Nat) (h : i + 1 < n) :
    GradientAt (fun u => linkCost u i h)
      ((200 * link x i h) • unit (i + 1) h +
        nearSlope x i h • unit i (Nat.lt_of_succ_lt h)) x := by
  have residual := link_gradient x i h
  have distance := (GradientAt.const 1 x).sub (.coordinate ⟨i, Nat.lt_of_succ_lt h⟩ x)
  refine (((residual.mul residual).const_mul 100.0).add (distance.mul distance)).congr
    (fun _ => rfl) fun k => ?_
  simp only [unit, nearSlope, Pi.sub_apply, Pi.add_apply, Pi.smul_apply, Pi.zero_apply, smul_eq_mul]
  norm_num
  ring

theorem nearSlope_gradient (i : Nat) (h : i + 1 < n) :
    GradientAt (fun u => nearSlope u i h)
      ((1200 * x.get ⟨i, Nat.lt_of_succ_lt h⟩ ^ 2 - 400 * x.get ⟨i + 1, h⟩ + 2) •
          unit i (Nat.lt_of_succ_lt h) -
        (400 * x.get ⟨i, Nat.lt_of_succ_lt h⟩) • unit (i + 1) h) x := by
  have here := GradientAt.coordinate ⟨i, Nat.lt_of_succ_lt h⟩ x
  have slope := (here.const_mul (-400.0)).mul (link_gradient x i h)
  refine (slope.sub (((GradientAt.const 1 x).sub here).const_mul 2.0)).congr (fun _ => rfl)
    fun k => ?_
  simp only [unit, link, Pi.sub_apply, Pi.add_apply, Pi.smul_apply, Pi.zero_apply, smul_eq_mul,
    Vector.get_eq_getElem]
  norm_num
  ring

theorem objective_eq_sum :
    objective x = ∑ i : Fin (n - 1), linkCost x i.val (by omega) := by
  rw [objective, sum_real, ← List.sum_ofFn]
  congr 1
  refine List.ext_getElem (by simp) fun i _ _ => ?_
  simp

/-- A sum over the links that only the link at position `j` contributes to. -/
theorem sum_at (a : (i : Nat) → i + 1 < n → ℝ) (j : Nat) :
    (∑ i : Fin (n - 1), if j = i.val then a i.val (by omega) else 0) =
      if h : j + 1 < n then a j h else 0 := by
  split
  · rw [Finset.sum_eq_single ⟨j, by omega⟩]
    · exact if_pos rfl
    · intro i _ other
      rw [Ne, Fin.ext_iff] at other
      exact if_neg (Ne.symm other)
    · exact fun absent => absurd (Finset.mem_univ _) absent
  · exact Finset.sum_eq_zero fun i _ => if_neg (by omega)

/-- Only the link ahead of a variable has it at its near end. -/
theorem sum_near (a : (i : Nat) → i + 1 < n → ℝ) (k : Fin n) :
    ∑ i : Fin (n - 1), a i.val (by omega) * unit i.val (by omega) k =
      if h : k.val + 1 < n then a k.val h else 0 := by
  simp only [unit_apply, mul_ite, mul_one, mul_zero]
  exact sum_at a k.val

/-- Only the link behind a variable has it at its far end. -/
theorem sum_far (a : (i : Nat) → i + 1 < n → ℝ) (k : Fin n) :
    ∑ i : Fin (n - 1), a i.val (by omega) * unit (i.val + 1) (by omega) k =
      if h : 0 < k.val then a (k.val - 1) (by omega) else 0 := by
  simp only [unit_apply, mul_ite, mul_one, mul_zero]
  obtain ⟨k, hk⟩ := k
  cases k with
  | zero => simp
  | succ j =>
    simp only [Nat.add_right_cancel_iff, sum_at a j, dif_pos hk, dif_pos j.succ_pos,
      Nat.add_sub_cancel]

/-- What the link behind a variable adds to its entry of the gradient. -/
noncomputable def behind (k : Fin n) : ℝ :=
  if h : 0 < k.val then 200.0 * link x (k.val - 1) (by omega) else 0

/-- What the link ahead of a variable adds to its entry of the gradient. -/
noncomputable def ahead (k : Fin n) : ℝ :=
  if h : k.val + 1 < n then nearSlope x k.val h else 0

theorem get_gradient (k : Fin n) : (gradient x).get k = behind x k + ahead x k := by
  rw [gradient, Vector.get_ofFn, behind, ahead]
  simp only [nearSlope, Vector.get_eq_getElem]
  split_ifs <;> norm_num

theorem objective_gradient : GradientAt objective (gradient x).get x := by
  have links : GradientAt (fun u => ∑ i : Fin (n - 1), linkCost u i.val (by omega))
      (∑ i : Fin (n - 1), ((200 * link x i.val (by omega)) • unit (i.val + 1) (by omega) +
        nearSlope x i.val (by omega) • unit i.val (by omega))) x :=
    .sum fun i _ => linkCost_gradient x i.val _
  refine links.congr objective_eq_sum fun k => ?_
  have far := sum_far (fun i h => 200 * link x i h) k
  have near := sum_near (nearSlope x) k
  norm_num only [get_gradient, behind, ahead]
  rw [← far, ← near, ← Finset.sum_add_distrib, Finset.sum_apply]
  rfl

/-- What the link behind a variable adds to its row of second derivatives. -/
noncomputable def behindRow (k l : Fin n) : ℝ :=
  if l.val = k.val then if 0 < k.val then 200.0 else 0
  else if l.val + 1 = k.val then -400.0 * x.get l else 0

/-- What the link ahead of a variable adds to its row of second derivatives. -/
noncomputable def aheadRow (k l : Fin n) : ℝ :=
  if l.val = k.val then
    if h : k.val + 1 < n then
      1200.0 * x.get k * x.get k - 400.0 * x.get ⟨k.val + 1, h⟩ + 2.0
    else 0
  else if k.val + 1 = l.val then -400.0 * x.get k else 0

theorem behind_gradient (k : Fin n) : GradientAt (behind · k) (behindRow x k) x := by
  obtain ⟨k, hk⟩ := k
  cases k with
  | zero =>
    refine (GradientAt.const 0 x).congr (fun _ => rfl) fun l => ?_
    simp [behindRow]
  | succ k =>
    refine ((link_gradient x k hk).const_mul 200.0).congr (fun _ => rfl) fun l => ?_
    obtain ⟨l, hl⟩ := l
    simp only [behindRow, Pi.smul_apply, Pi.sub_apply, unit_apply, smul_eq_mul]
    by_cases far : l = k + 1
    · norm_num [far]
    · by_cases near : l = k
      · subst near
        norm_num
        ring
      · simp [far, near]

theorem ahead_gradient (k : Fin n) : GradientAt (ahead · k) (aheadRow x k) x := by
  obtain ⟨k, hk⟩ := k
  by_cases h : k + 1 < n
  · refine (nearSlope_gradient x k h).congr (fun _ => dif_pos h) fun l => ?_
    obtain ⟨l, hl⟩ := l
    simp only [aheadRow, Pi.smul_apply, Pi.sub_apply, unit_apply, smul_eq_mul, dif_pos h]
    by_cases near : l = k
    · norm_num [near]
      ring
    · by_cases far : k + 1 = l
      · subst far
        norm_num
      · simp [near, far, Ne.symm far]
  · refine (GradientAt.const 0 x).congr (fun _ => dif_neg h) fun l => ?_
    have last : k + 1 ≠ l.val := by
      have := l.isLt
      omega
    simp [aheadRow, h, last]

theorem objective_hessian :
    HessianAt objective (fun k l => behindRow x k l + aheadRow x k l) x := by
  refine ⟨fun u => (gradient u).get, objective_gradient, fun k => ?_⟩
  exact ((behind_gradient x k).add (ahead_gradient x k)).congr (get_gradient · k) fun _ => rfl

/-- The rows of the two links together, times the weight. -/
theorem hessian_entry (w : ℝ) (k l : Fin n) :
    (hessian x w).entry k l = w * (behindRow x k l + aheadRow x k l) := by
  rw [hessian, Dense.entry_ofFn, behindRow, aheadRow]
  obtain ⟨k, hk⟩ := k
  obtain ⟨l, hl⟩ := l
  simp only [Vector.get_eq_getElem]
  -- the diagonal, the entries on either side of it, and the rest
  by_cases same : k = l
  · subst same
    simp only [if_true]
    split_ifs <;> norm_num
    ring
  · by_cases near : k + 1 = l
    · subst near
      have apart : k + 1 + 1 ≠ k := by omega
      norm_num [apart]
      ring
    · by_cases far : l + 1 = k
      · subst far
        norm_num [near]
        ring
      · simp [same, Ne.symm same, near, far]

theorem hessian_symmetric (w : ℝ) : (hessian x w).Symmetric := by
  intro i j
  simp only [hessian, Dense.entry_ofFn]
  by_cases same : i.val = j.val
  · rw [Fin.ext same]
  · rw [if_neg same, if_neg (Ne.symm same)]
    split_ifs <;> first | rfl | omega

end Links

theorem evaluates (n : Nat) :
    (problem n : Problem ℝ Unit _).Evaluates (functions n) fun x w _ _ => hessian x w where
  objective _ _ := leaves_good _
  equalities _ _ := leaves_silent _
  inequalities _ _ := leaves_silent _
  gradient _ _ := leaves_good _
  equalityJacobian _ _ := leaves_silent _
  inequalityJacobian _ _ := leaves_silent _
  providesHessian := rfl
  hessian _ _ _ _ _ := leaves_good _ _

variable (x : Vector ℝ n)

theorem hessiansAt : (functions n).HessiansAt (fun w _ _ => hessian x w) x where
  symmetric w _ _ := hessian_symmetric x w
  weighted := by
    refine ⟨_, finZeroElim, finZeroElim, objective_hessian x, finZeroElim, finZeroElim, ?_⟩
    intro w yc yd i k
    rw [hessian_entry]
    simp

theorem exactAt : (problem n : Problem ℝ Unit _).ExactAt x :=
  ⟨_, _, evaluates n, ⟨objective_gradient x, finZeroElim, finZeroElim⟩, hessiansAt x⟩

end Rosenbrock

/-- The derivatives of every test problem are exact at every point, and those of the first at every
point without a zero, where its quotients are defined. -/
theorem derivatives_exact :
    (∀ x : Vector ℝ 4, (∀ i, x.get i ≠ 0) → (Hs071.problem : Problem ℝ Unit _).ExactAt x) ∧
    (∀ x : Vector ℝ 3, (Hs035.problem : Problem ℝ Unit _).ExactAt x) ∧
    (∀ x : Vector ℝ 2, (Hs006.problem : Problem ℝ Unit _).ExactAt x) ∧
    ∀ n (x : Vector ℝ n), (Rosenbrock.problem n : Problem ℝ Unit _).ExactAt x :=
  ⟨Hs071.exactAt, Hs035.exactAt, Hs006.exactAt, fun _ => Rosenbrock.exactAt⟩

/-- At the lower bounds of its variables no variable of the first problem is zero. -/
theorem derivatives_exact_at_bounds :
    (Hs071.problem : Problem ℝ Unit _).ExactAt (Vector.replicate 4 1) := by
  refine derivatives_exact.1 _ fun i => ?_
  rw [Vector.get_replicate]
  exact one_ne_zero

end SmoothOpt.Suite
