import Mathlib

/-!
# Engine parameters (`a-game-brain/app/engine/params.py`)

The engine computes with Python floats. The model computes with the elements
of an ordered field, exactly; the three functions of `math` and `**` with a
fractional exponent are the operations of `PyMath`.
-/

namespace AGame.Engine

/-- `math.exp`, `math.log` and `x ** y`. -/
class PyMath (R : Type) where
  exp : R → R
  log : R → R
  pow : R → R → R

noncomputable instance : PyMath ℝ where
  exp := Real.exp
  log := Real.log
  pow := fun x y => x ^ y

def ENGINE_VERSION : String := "0.1.0"

section

variable (R : Type) [Field R]

def DEFAULT_RATING : R := 1500

def K_FACTOR : R := 20

def HOME_ADVANTAGE : R := 70

def PROMOTED_PENALTY : R := 50

def HALF_LIFE_DAYS : R := 182.5

def MIN_SAMPLE : R := 6

end

def MAX_GOALS : ℕ := 10

end AGame.Engine
