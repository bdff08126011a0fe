import Ito.Library.Accumulators
import Ito.PortfolioRisk
import Mathlib.Algebra.BigOperators.Fin
import Mathlib.Data.Matrix.Mul

/-! The variance of the factor model: the loops of `calculate_variance` and the quadratic form
that they add up.

Source: `python/portfolio/portfolio.py`. -/

namespace Ito.FactorModel

variable (model : FactorModel)

/-- One turn of the outer loop: the notional of an instrument, loaded on every factor. -/
def expose (exposures : String → ℚ) (entry : Int × ℚ) : String → ℚ :=
  model.factors.foldl
    (fun exposures factor => Function.update exposures factor
      (exposures factor + entry.2 * model.loading entry.1 factor))
    exposures

/-- `factor_exposures`, whose entries are all zero at first. -/
def factorExposures (notionals : List (Int × ℚ)) : String → ℚ :=
  notionals.foldl model.expose fun _ => 0

def factorVar (exposures : String → ℚ) : ℚ :=
  model.factors.foldl
    (fun total first =>
      if exposures first = 0 then total
      else model.factors.foldl
        (fun total second =>
          if exposures second = 0 then total
          else total + exposures first * exposures second * model.covariance first second)
        total)
    0

def specVar (notionals : List (Int × ℚ)) : ℚ :=
  notionals.foldl
    (fun total entry =>
      let varEps := (model.specificVariance entry.1).getD 0
      if 0 < varEps ∧ entry.2 ≠ 0 then total + entry.2 ^ 2 * varEps else total)
    0

/-- `calculate_variance` with its loops. -/
def loopVariance (notionals : List (Int × ℚ)) : ℚ :=
  max 0 (model.factorVar (model.factorExposures notionals) + model.specVar notionals)

/-! The formula -/

def exposureTo (notionals : List (Int × ℚ)) (factor : String) : ℚ :=
  (notionals.map fun entry => entry.2 * model.loading entry.1 factor).sum

def exposureVector (notionals : List (Int × ℚ)) : Fin model.factors.length → ℚ :=
  fun index => model.exposureTo notionals model.factors[index]

def covariances : Matrix (Fin model.factors.length) (Fin model.factors.length) ℚ :=
  Matrix.of fun row column => model.covariance model.factors[row] model.factors[column]

def specificTerm (entry : Int × ℚ) : ℚ :=
  entry.2 ^ 2 * max 0 ((model.specificVariance entry.1).getD 0)

/-- The formula of the model: the quadratic form of the exposures and the specific variances,
and no less than zero. -/
def formula (notionals : List (Int × ℚ)) : ℚ :=
  max 0 (dotProduct (model.exposureVector notionals)
      (model.covariances.mulVec (model.exposureVector notionals)) +
    (notionals.map model.specificTerm).sum)

/-! The loops add up the sums of the model -/

theorem factorExposures_eq (notionals : List (Int × ℚ)) :
    model.factorExposures notionals = model.factorExposure notionals := by
  funext factor
  have each : ∀ (exposures : String → ℚ) (entry : Int × ℚ) (factor : String),
      model.expose exposures entry factor = exposures factor +
        (model.factors.map fun named =>
          if named = factor then entry.2 * model.loading entry.1 named else 0).sum := by
    intro exposures entry factor
    exact Accumulators.foldl_update id (fun named => entry.2 * model.loading entry.1 named)
      model.factors exposures factor
  rw [factorExposures, Accumulators.foldl_table each, zero_add]
  rfl

theorem factorVar_eq (exposures : String → ℚ) :
    model.factorVar exposures =
      (model.factors.map fun first =>
        if exposures first = 0 then 0
        else (model.factors.map fun second =>
          if exposures second = 0 then 0
          else exposures first * exposures second * model.covariance first second).sum).sum := by
  have inner : ∀ (first : String) (total : ℚ) (second : String),
      (if exposures second = 0 then total
        else total + exposures first * exposures second * model.covariance first second) =
      total + if exposures second = 0 then 0
        else exposures first * exposures second * model.covariance first second := by
    intro first total second
    split
    · exact (add_zero total).symm
    · rfl
  have outer : ∀ (total : ℚ) (first : String),
      (if exposures first = 0 then total
        else model.factors.foldl
          (fun total second =>
            if exposures second = 0 then total
            else total + exposures first * exposures second * model.covariance first second)
          total) =
      total + if exposures first = 0 then 0
        else (model.factors.map fun second =>
          if exposures second = 0 then 0
          else exposures first * exposures second * model.covariance first second).sum := by
    intro total first
    split
    · exact (add_zero total).symm
    · exact Accumulators.foldl_add (inner first) model.factors total
  exact (Accumulators.foldl_add outer model.factors 0).trans (zero_add _)

theorem specVar_eq (notionals : List (Int × ℚ)) :
    model.specVar notionals = (notionals.map fun entry =>
      let varEps := (model.specificVariance entry.1).getD 0
      if 0 < varEps ∧ entry.2 ≠ 0 then entry.2 ^ 2 * varEps else 0).sum := by
  have turn : ∀ (total : ℚ) (entry : Int × ℚ),
      (let varEps := (model.specificVariance entry.1).getD 0
        if 0 < varEps ∧ entry.2 ≠ 0 then total + entry.2 ^ 2 * varEps else total) =
      total + (let varEps := (model.specificVariance entry.1).getD 0
        if 0 < varEps ∧ entry.2 ≠ 0 then entry.2 ^ 2 * varEps else 0) := by
    intro total entry
    dsimp only
    split
    · rfl
    · exact (add_zero total).symm
  exact (Accumulators.foldl_add turn notionals 0).trans (zero_add _)

theorem loopVariance_eq (notionals : List (Int × ℚ)) :
    model.loopVariance notionals = model.calculateVariance notionals := by
  rw [loopVariance, calculateVariance, factorExposures_eq, factorVar_eq, specVar_eq]

/-! The shortcuts change no sum -/

def quadratic (notionals : List (Int × ℚ)) : ℚ :=
  (model.factors.map fun first => model.exposureTo notionals first *
    (model.factors.map fun second =>
      model.covariance first second * model.exposureTo notionals second).sum).sum

theorem factorExposure_eq (distinct : model.factors.Nodup) {factor : String}
    (named : factor ∈ model.factors) (notionals : List (Int × ℚ)) :
    model.factorExposure notionals factor = model.exposureTo notionals factor := by
  have once : ∀ entry : Int × ℚ,
      (model.factors.map fun named =>
        if named = factor then entry.2 * model.loading entry.1 named else 0).sum =
      entry.2 * model.loading entry.1 factor := by
    intro entry
    rw [List.sum_map_ite_eq, List.count_eq_one_of_mem distinct named]
    simp
  rw [factorExposure, exposureTo]
  exact congrArg List.sum (List.map_congr_left fun entry _ => once entry)

theorem factorTerms_eq (distinct : model.factors.Nodup) (notionals : List (Int × ℚ)) :
    (model.factors.map fun first =>
      if model.factorExposure notionals first = 0 then 0
      else (model.factors.map fun second =>
        if model.factorExposure notionals second = 0 then 0
        else model.factorExposure notionals first * model.factorExposure notionals second *
          model.covariance first second).sum).sum =
      model.quadratic notionals := by
  have exposed := fun factor (named : factor ∈ model.factors) =>
    model.factorExposure_eq distinct named notionals
  rw [quadratic]
  refine congrArg List.sum (List.map_congr_left fun first named => ?_)
  rw [exposed first named, ← List.sum_map_mul_left]
  split
  case isTrue zero => simp [zero]
  case isFalse =>
    refine congrArg List.sum (List.map_congr_left fun second named => ?_)
    rw [exposed second named]
    split
    case isTrue zero => simp [zero]
    case isFalse => ring

theorem specificTerms_eq (notionals : List (Int × ℚ)) :
    (notionals.map fun entry =>
      let varEps := (model.specificVariance entry.1).getD 0
      if 0 < varEps ∧ entry.2 ≠ 0 then entry.2 ^ 2 * varEps else 0).sum =
      (notionals.map model.specificTerm).sum := by
  refine congrArg List.sum (List.map_congr_left fun entry _ => ?_)
  dsimp only [specificTerm]
  split
  case isTrue counts => rw [max_eq_right counts.1.le]
  case isFalse skipped =>
    rcases not_and_or.mp skipped with negative | zero
    · rw [max_eq_left (not_lt.mp negative), mul_zero]
    · rw [not_ne_iff.mp zero]
      simp

theorem calculateVariance_eq (distinct : model.factors.Nodup) (notionals : List (Int × ℚ)) :
    model.calculateVariance notionals =
      max 0 (model.quadratic notionals + (notionals.map model.specificTerm).sum) := by
  rw [calculateVariance]
  exact congrArg (max 0) (congrArg₂ (· + ·) (model.factorTerms_eq distinct notionals)
    (model.specificTerms_eq notionals))

theorem quadratic_eq (notionals : List (Int × ℚ)) :
    model.quadratic notionals =
      dotProduct (model.exposureVector notionals)
        (model.covariances.mulVec (model.exposureVector notionals)) := by
  rw [quadratic, ← Fin.sum_univ_fun_getElem, dotProduct]
  refine Finset.sum_congr rfl fun row _ => ?_
  rw [← Fin.sum_univ_fun_getElem]
  rfl

/-! Order and scale -/

theorem quadratic_factors {factors : List String} (same : model.factors.Perm factors)
    (notionals : List (Int × ℚ)) :
    quadratic { model with factors } notionals = model.quadratic notionals := by
  have inner : ∀ first, (factors.map fun second =>
      model.covariance first second * model.exposureTo notionals second).sum =
      (model.factors.map fun second =>
        model.covariance first second * model.exposureTo notionals second).sum :=
    fun first => ((same.map _).sum_eq).symm
  calc quadratic { model with factors } notionals
      = (factors.map fun first => model.exposureTo notionals first *
          (factors.map fun second =>
            model.covariance first second * model.exposureTo notionals second).sum).sum := rfl
    _ = (factors.map fun first => model.exposureTo notionals first *
          (model.factors.map fun second =>
            model.covariance first second * model.exposureTo notionals second).sum).sum := by
        simp only [inner]
    _ = model.quadratic notionals := ((same.map _).sum_eq).symm

def scale (factor : ℚ) (notionals : List (Int × ℚ)) : List (Int × ℚ) :=
  notionals.map fun entry => (entry.1, factor * entry.2)

theorem exposureTo_scale (factor : ℚ) (notionals : List (Int × ℚ)) (named : String) :
    model.exposureTo (scale factor notionals) named =
      factor * model.exposureTo notionals named := by
  rw [exposureTo, exposureTo, scale, List.map_map, ← List.sum_map_mul_left]
  refine congrArg List.sum (List.map_congr_left fun entry _ => ?_)
  exact mul_assoc factor entry.2 _

theorem quadratic_scale (factor : ℚ) (notionals : List (Int × ℚ)) :
    model.quadratic (scale factor notionals) = factor ^ 2 * model.quadratic notionals := by
  rw [quadratic, quadratic, ← List.sum_map_mul_left]
  refine congrArg List.sum (List.map_congr_left fun first _ => ?_)
  rw [exposureTo_scale, ← List.sum_map_mul_left, ← List.sum_map_mul_left,
    ← List.sum_map_mul_left]
  refine congrArg List.sum (List.map_congr_left fun second _ => ?_)
  rw [exposureTo_scale]
  ring

theorem specificTerms_scale (factor : ℚ) (notionals : List (Int × ℚ)) :
    ((scale factor notionals).map model.specificTerm).sum =
      factor ^ 2 * (notionals.map model.specificTerm).sum := by
  rw [scale, List.map_map, ← List.sum_map_mul_left]
  refine congrArg List.sum (List.map_congr_left fun entry _ => ?_)
  simp only [Function.comp_apply, specificTerm]
  ring

theorem calculateVariance_perm {notionals others : List (Int × ℚ)}
    (same : notionals.Perm others) :
    model.calculateVariance notionals = model.calculateVariance others := by
  have exposures : model.factorExposure notionals = model.factorExposure others :=
    funext fun factor => (same.map _).sum_eq
  rw [calculateVariance, calculateVariance, exposures]
  exact congrArg (max 0) (congrArg₂ (· + ·) rfl (same.map _).sum_eq)

theorem calculateVariance_zero (notionals : List (Int × ℚ)) (instrumentId : Int) :
    model.calculateVariance ((instrumentId, 0) :: notionals) =
      model.calculateVariance notionals := by
  have exposures : model.factorExposure ((instrumentId, 0) :: notionals) =
      model.factorExposure notionals := by
    funext factor
    rw [factorExposure, factorExposure, List.map_cons, List.sum_cons]
    simp
  rw [calculateVariance, calculateVariance, exposures]
  simp

theorem calculateVariance_factors (distinct : model.factors.Nodup) {factors : List String}
    (same : model.factors.Perm factors) (notionals : List (Int × ℚ)) :
    calculateVariance { model with factors } notionals = model.calculateVariance notionals := by
  rw [calculateVariance_eq { model with factors } (same.nodup distinct),
    calculateVariance_eq _ distinct, quadratic_factors _ same]
  rfl

theorem calculateVariance_scale (distinct : model.factors.Nodup) (factor : ℚ)
    (notionals : List (Int × ℚ)) :
    model.calculateVariance (scale factor notionals) =
      factor ^ 2 * model.calculateVariance notionals := by
  rw [calculateVariance_eq _ distinct, calculateVariance_eq _ distinct, quadratic_scale,
    specificTerms_scale, ← mul_add, mul_max_of_nonneg _ _ (sq_nonneg factor), mul_zero]

/-- The loops compute the formula, whatever the order of the instruments and of the factors. -/
theorem variance_formula (distinct : model.factors.Nodup) (notionals : List (Int × ℚ)) :
    model.loopVariance notionals = model.formula notionals ∧
    (∀ others, notionals.Perm others →
      model.loopVariance others = model.loopVariance notionals) ∧
    (∀ factors, model.factors.Perm factors →
      loopVariance { model with factors } notionals = model.loopVariance notionals) ∧
    ∀ factor : ℚ,
      model.loopVariance (scale factor notionals) = factor ^ 2 * model.loopVariance notionals := by
  refine ⟨?_, fun others same => ?_, fun factors same => ?_, fun factor => ?_⟩
  · rw [loopVariance_eq, calculateVariance_eq _ distinct, quadratic_eq, formula]
  · rw [loopVariance_eq, loopVariance_eq, calculateVariance_perm _ same]
  · rw [loopVariance_eq, loopVariance_eq, calculateVariance_factors _ distinct same]
  · rw [loopVariance_eq, loopVariance_eq, calculateVariance_scale _ distinct]

/-- The factor model of the tests. -/
def testModel : FactorModel where
  factors := ["Market", "Tech"]
  loadings instrumentId :=
    if instrumentId = 1 then
      some fun factor => if factor = "Market" then some (12 / 10)
        else if factor = "Tech" then some (8 / 10) else none
    else if instrumentId = 2 then
      some fun factor => if factor = "Market" then some (7 / 10)
        else if factor = "Tech" then some (2 / 10) else none
    else none
  covarianceMatrix factor :=
    if factor = "Market" then
      some fun other => if other = "Market" then some (4 / 100)
        else if other = "Tech" then some (2 / 100) else none
    else if factor = "Tech" then
      some fun other => if other = "Market" then some (2 / 100)
        else if other = "Tech" then some (6 / 100) else none
    else none
  specificVariance instrumentId :=
    if instrumentId = 1 ∨ instrumentId = 2 then some (1 / 100) else none

theorem variance_formula_test :
    testModel.loopVariance [(1, 5000), (2, -3000)] = 2172400 ∧
    testModel.loopVariance [(1, 5000), (2, -3000)] =
      testModel.formula [(1, 5000), (2, -3000)] :=
  ⟨by decide +kernel, (variance_formula testModel (by decide) _).1⟩

end Ito.FactorModel
