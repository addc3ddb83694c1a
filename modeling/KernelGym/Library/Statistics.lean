import Mathlib.Algebra.BigOperators.Group.List.Basic
import Mathlib.Algebra.Field.Defs
import Mathlib.Data.List.Sort

/-! Mean, sample variance and median of lists over an ordered field. They do not depend on the order of the list. -/

namespace KernelGym.Library

variable {K : Type}

section

variable [LinearOrder K] {data data' : List K}

def ordered (data : List K) : List K := data.insertionSort (· ≤ ·)

theorem ordered_perm (h : data.Perm data') : ordered data = ordered data' := by
  have hperm : (ordered data).Perm (ordered data') :=
    (List.perm_insertionSort _ data).trans (h.trans (List.perm_insertionSort _ data').symm)
  exact hperm.eq_of_pairwise' (List.pairwise_insertionSort _ data) (List.pairwise_insertionSort _ data')

theorem ordered_length : (ordered data).length = data.length := List.length_insertionSort _ data

end

variable [Field K] {data data' : List K}

def mean (data : List K) : K := data.sum / data.length

/-- The sample variance. -/
def variance (data : List K) : K := (data.map fun x => (x - mean data) ^ 2).sum / ((data.length : K) - 1)

def median [LinearOrder K] (data : List K) : K :=
  if data.length % 2 = 1 then (ordered data).getD (data.length / 2) 0
  else ((ordered data).getD (data.length / 2 - 1) 0 + (ordered data).getD (data.length / 2) 0) / 2

theorem mean_perm (h : data.Perm data') : mean data = mean data' := by
  rw [mean, mean, h.sum_eq, h.length_eq]

theorem variance_perm (h : data.Perm data') : variance data = variance data' := by
  rw [variance, variance, mean_perm h, (h.map _).sum_eq, h.length_eq]

theorem median_perm [LinearOrder K] (h : data.Perm data') : median data = median data' := by
  rw [median, median, ordered_perm h, h.length_eq]

end KernelGym.Library
