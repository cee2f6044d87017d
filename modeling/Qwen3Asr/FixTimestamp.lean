import Mathlib.Algebra.Order.Field.Rat
import Mathlib.Data.Rat.Floor
import Mathlib.Tactic.Linarith
import Qwen3Asr.Library.LongestChain
import Qwen3Asr.Library.Loop

/-! Repair of the timestamps of a forced alignment: those on a longest nondecreasing subsequence are kept, the runs
between them are filled from their neighbours. -/
namespace Qwen3Asr.FixTimestamp
open Library.LongestChain Library.Loop

def sample (data : List ℚ) (i : Nat) : ℚ := data.getD i 0

section Longest
variable (data : List ℚ)

def tryParent (dp : List (Nat × Option Nat)) (i : Nat) (best : Nat × Option Nat) (j : Nat) : Nat × Option Nat :=
  let length := (dp.getD j (1,none)).1
  if sample data j ≤ sample data i ∧ best.1 < length+1 then (length+1,some j) else best

def subsequences : Nat → List (Nat × Option Nat)
  | 0 => []
  | i+1 =>
    let dp := subsequences i
    dp ++ [(List.range i).foldl (tryParent data dp i) (1,none)]

def maxIdx (dp : List (Nat × Option Nat)) : Nat :=
  let maxLen := ((dp.map Prod.fst).max?).getD 0
  (dp.findIdx? fun entry => entry.1 = maxLen).getD 0

def backBody (dp : List (Nat × Option Nat)) : List Nat × Option Nat → Next (List Nat × Option Nat) (List Nat)
  | (indices,none) => .exit indices
  | (indices,some u) => .next (u::indices,(dp[u]?).bind Prod.snd)

end Longest

section Repair
variable (isNormal : List Bool)

def runEnd (i : Nat) : Nat := i+((isNormal.drop i).takeWhile (!·)).length

def leftVal (result : List ℚ) (i : Nat) : Option ℚ :=
  ((List.range i).reverse.find? fun k => isNormal.getD k false).bind fun k => result[k]?

def rightVal (result : List ℚ) (j : Nat) : Option ℚ :=
  ((List.range' j (isNormal.length-j)).find? fun k => isNormal.getD k false).bind fun k => result[k]?

def newVal (left right : Option ℚ) (i j k : Nat) : ℚ :=
  let count := j-i
  if count ≤ 2 then
    match left, right with
    | none, some r => r
    | some l, none => l
    | some l, some r => if k-(i-1) ≤ j-k then l else r
    | none, none => 0
  else
    match left, right with
    | some l, some r => l+(r-l)/(count+1)*(k-i+1 : Nat)
    | some l, none => l
    | none, some r => r
    | none, none => 0

def repairBody : Nat × List ℚ → Next (Nat × List ℚ) (List ℚ)
  | (i,result) =>
    if i < isNormal.length then
      if isNormal.getD i false then .next (i+1,result) else
      let j := runEnd isNormal i
      let left := leftVal isNormal result i
      let right := rightVal isNormal result j
      .next (j,result.mapIdx fun k x => if i ≤ k ∧ k < j then newVal left right i j k else x)
    else .exit result

end Repair

def I64_MAX : Int := 2^63-1
def I64_MIN : Int := -2^63

/- The fraction is cut off, and the cast keeps to the range of the type. -/
def truncated (x : ℚ) : Int := max I64_MIN (min I64_MAX (if 0 ≤ x then ⌊x⌋ else ⌈x⌉))

/- Without a result where a loop does not end. -/
def fixTimestamp (data : List ℚ) : Option (List Int) :=
  if data = [] then some [] else do
  let dp := subsequences data data.length
  let indices ← run (backBody dp) (data.length+1) ([],some (maxIdx dp))
  let isNormal := (List.range data.length).map fun i => decide (i ∈ indices)
  let result ← run (repairBody isNormal) (data.length+1) (0,data)
  some (result.map truncated)

section Table
variable {data : List ℚ}

def InOrder (data : List ℚ) (j i : Nat) : Prop := sample data j ≤ sample data i

def entry (data : List ℚ) (i : Nat) : Nat × Option Nat :=
  (List.range i).foldl (tryParent data (subsequences data i) i) (1,none)

theorem subsequencesLength (n : Nat) : (subsequences data n).length = n := by
  induction n with
  | zero => rfl
  | succ n ih => rw [subsequences,List.length_append,ih,List.length_singleton]

theorem subsequencesGet {n i : Nat} (less : i < n) : (subsequences data n)[i]? = some (entry data i) := by
  induction n with
  | zero => exact absurd less (Nat.not_lt_zero _)
  | succ n ih =>
    rw [subsequences]
    rcases Nat.lt_succ_iff_lt_or_eq.mp less with earlier | rfl
    · rw [List.getElem?_append_left (by rwa [subsequencesLength]),ih earlier]
    · rw [List.getElem?_append_right (by rw [subsequencesLength]),subsequencesLength,Nat.sub_self]
      rfl

structure BestOf (data : List ℚ) (i : Nat) (tried : List Nat) (start best : Nat × Option Nat) : Prop where
  grown : start.1 ≤ best.1
  above : ∀ j ∈ tried, InOrder data j i → (entry data j).1 < best.1
  source : best = start ∨ ∃ j ∈ tried, InOrder data j i ∧ best = ((entry data j).1+1,some j)

theorem triedBest {i : Nat} (tried : List Nat) (below : ∀ j ∈ tried, j < i) (start : Nat × Option Nat) :
    BestOf data i tried start (tried.foldl (tryParent data (subsequences data i) i) start) := by
  induction tried generalizing start with
  | nil => exact ⟨le_refl _,fun _ inside => (by cases inside),.inl rfl⟩
  | cons j tried ih =>
    obtain ⟨here,later⟩ := List.forall_mem_cons.mp below
    have known : ((subsequences data i).getD j (1,none)).1 = (entry data j).1 := by
      rw [List.getD_eq_getElem?_getD,subsequencesGet here,Option.getD_some]
    have rest := ih later (tryParent data (subsequences data i) i start j)
    rw [List.foldl_cons]
    unfold tryParent at rest ⊢
    simp only [known] at rest ⊢
    split_ifs at rest ⊢ with taken
    · obtain ⟨ordered,more⟩ := taken
      refine ⟨(Nat.le_of_lt more).trans rest.grown,List.forall_mem_cons.mpr ⟨fun _ => rest.grown,rest.above⟩,.inr ?_⟩
      rcases rest.source with same | ⟨k,inside,found⟩
      · exact ⟨j,List.mem_cons_self,ordered,same⟩
      · exact ⟨k,List.mem_cons_of_mem _ inside,found⟩
    · refine ⟨rest.grown,List.forall_mem_cons.mpr ⟨fun ordered => ?_,rest.above⟩,?_⟩
      · have full := not_and.mp taken ordered
        have grown := rest.grown
        omega
      · rcases rest.source with same | ⟨k,inside,found⟩
        · exact .inl same
        · exact .inr ⟨k,List.mem_cons_of_mem _ inside,found⟩

theorem entryBest (i : Nat) : BestOf data i (List.range i) (1,none) (entry data i) :=
  triedBest _ (fun _ inside => List.mem_range.mp inside) _

theorem bestEnds (n : Nat) : BestEnds (InOrder data) n (fun i => (entry data i).1) (fun i => (entry data i).2) where
  above i _ j less ordered := (entryBest i).above j (List.mem_range.mpr less) ordered
  first i _ alone := by
    rcases (@entryBest data i).source with same | ⟨j,_,_,found⟩
    · rw [same]
    · rw [found] at alone
      cases alone
  before i _ j parent := by
    rcases (@entryBest data i).source with same | ⟨k,inside,ordered,found⟩
    · rw [same] at parent
      cases parent
    · rw [found] at parent
      cases parent
      exact ⟨List.mem_range.mp inside,ordered,by rw [found]⟩

end Table

section Back
variable {data : List ℚ} {n : Nat}

theorem maxIdxBest (some_ : 0 < n) :
    maxIdx (subsequences data n) < n ∧ ∀ i < n, (entry data i).1 ≤ (entry data (maxIdx (subsequences data n))).1 := by
  have known : ∀ i < n, (entry data i).1 ∈ (subsequences data n).map Prod.fst := fun i less =>
    List.mem_map_of_mem (List.mem_of_getElem? (subsequencesGet less))
  cases highest : ((subsequences data n).map Prod.fst).max? with
  | none =>
    have empty := List.max?_eq_none_iff.mp highest
    rw [empty] at known
    cases known 0 some_
  | some top =>
    obtain ⟨inside,most⟩ := List.max?_eq_some_iff.mp highest
    cases first : (subsequences data n).findIdx? fun entry => decide (entry.1 = top) with
    | none =>
      obtain ⟨found,among,same⟩ := List.mem_map.mp inside
      have missed := List.findIdx?_eq_none_iff.mp first found among
      exact absurd same (of_decide_eq_false missed)
    | some i =>
      have reached : maxIdx (subsequences data n) = i := by
        unfold maxIdx
        rw [highest]
        simp only [Option.getD_some,first]
      obtain ⟨bound,same,_⟩ := List.findIdx?_eq_some_iff_getElem.mp first
      rw [subsequencesLength] at bound
      have there := List.getElem?_eq_some_iff.mp (@subsequencesGet data n i bound)
      obtain ⟨_,got⟩ := there
      rw [got] at same
      rw [reached,of_decide_eq_true same]
      exact ⟨bound,fun k less => most _ (known k less)⟩

/- What the way back has found so far, and the length of what is still missing. -/
def OnWay (data : List ℚ) (n top : Nat) : List Nat × Option Nat → Prop
  | (indices,none) => Chain (InOrder data) n indices ∧ indices.length = top
  | (indices,some u) => Chain (InOrder data) n (u::indices) ∧ indices.length+(entry data u).1 = top

theorem wayBack {top : Nat} {state : List Nat × Option Nat} (way : OnWay data n top state)
    (short : state.2.elim 0 (·+1) ≤ n) : ∃ indices, run (backBody (subsequences data n)) (n+1) state = some indices ∧
      Chain (InOrder data) n indices ∧ indices.length = top := by
  refine runBounded (fun state : List Nat × Option Nat => state.2.elim 0 (·+1)) (fun state next way turned => ?_)
    (fun state indices way done => ?_) way (Nat.lt_succ_of_le short)
  · obtain ⟨indices,position⟩ := state
    cases position with
    | none => cases turned
    | some u =>
      obtain ⟨chain,full⟩ := way
      have bound := chain.bound u List.mem_cons_self
      rw [backBody,subsequencesGet bound] at turned
      cases turned
      rw [Option.bind_some]
      cases parent : (entry data u).2 with
      | none =>
        have one := (bestEnds n).first u bound parent
        exact ⟨⟨chain,by rw [List.length_cons,← full,one]⟩,Nat.succ_pos _⟩
      | some j =>
        obtain ⟨less,ordered,more⟩ := (bestEnds n).before u bound j parent
        have transitive : ∀ a b c, InOrder data a b → InOrder data b c → InOrder data a c := fun _ _ _ => le_trans
        refine ⟨⟨chainCons transitive chain less ordered,?_⟩,Nat.succ_lt_succ less⟩
        rw [List.length_cons,← full,more]
        omega
  · obtain ⟨found,position⟩ := state
    cases position with
    | none =>
      cases done
      exact way
    | some u => cases done

theorem keptLongest (some_ : 0 < n) :
    ∃ kept, run (backBody (subsequences data n)) (n+1) ([],some (maxIdx (subsequences data n))) = some kept ∧
      Longest (InOrder data) n kept := by
  obtain ⟨bound,most⟩ := @maxIdxBest data n some_
  have start : OnWay data n (entry data (maxIdx (subsequences data n))).1 ([],some (maxIdx (subsequences data n))) :=
    ⟨chainSingle bound,Nat.zero_add _⟩
  obtain ⟨kept,ran,chain,full⟩ := wayBack start bound
  exact ⟨kept,ran,longestOf (bestEnds n) most chain full⟩

end Back

section Values
variable {left right : Option ℚ} {i j k : Nat}

theorem weightBounds (inside : i ≤ k ∧ k < j) : ((k-i+1 : Nat) : ℚ)/((j-i : Nat)+1) ≤ 1 := by
  have less : ((k-i+1 : Nat) : ℚ) ≤ (j-i : Nat)+1 := by
    have natural : k-i+1 ≤ j-i+1 := by omega
    exact_mod_cast natural
  have positive : (0 : ℚ) < (j-i : Nat)+1 := by positivity
  exact (div_le_one positive).mpr less

theorem newValBetween {l r : ℚ} (ordered : l ≤ r) (inside : i ≤ k ∧ k < j) :
    l ≤ newVal (some l) (some r) i j k ∧ newVal (some l) (some r) i j k ≤ r := by
  unfold newVal
  dsimp only
  split_ifs
  · exact ⟨le_refl l,ordered⟩
  · exact ⟨ordered,le_refl r⟩
  · have least : (0 : ℚ) ≤ ((k-i+1 : Nat) : ℚ)/((j-i : Nat)+1) := by positivity
    have most := weightBounds inside
    have same : (r-l)/((j-i : Nat)+1)*((k-i+1 : Nat) : ℚ) = (r-l)*(((k-i+1 : Nat) : ℚ)/((j-i : Nat)+1)) := by ring
    rw [same]
    constructor
    · nlinarith
    · nlinarith

theorem newValMono {l r : ℚ} (ordered : l ≤ r) {later : Nat} (after : k ≤ later) :
    newVal (some l) (some r) i j k ≤ newVal (some l) (some r) i j later := by
  unfold newVal
  dsimp only
  split_ifs with _ near far
  · exact le_refl l
  · exact ordered
  · omega
  · exact le_refl r
  · have step : (0 : ℚ) ≤ (r-l)/((j-i : Nat)+1) := by
      have gap : 0 ≤ r-l := by linarith
      positivity
    have counts : ((k-i+1 : Nat) : ℚ) ≤ (later-i+1 : Nat) := by
      have natural : k-i+1 ≤ later-i+1 := by omega
      exact_mod_cast natural
    have grown := mul_le_mul_of_nonneg_left counts step
    linarith

theorem newValLeft (l : ℚ) : newVal (some l) none i j k = l := by
  unfold newVal
  dsimp only
  split_ifs <;> rfl

theorem newValRight (r : ℚ) : newVal none (some r) i j k = r := by
  unfold newVal
  dsimp only
  split_ifs <;> rfl

end Values

section Runs
variable {isNormal : List Bool} {data result : List ℚ} {i j k : Nat}

abbrev Normal (isNormal : List Bool) (k : Nat) : Prop := isNormal.getD k false = true

theorem normalBound (normal : Normal isNormal k) : k < isNormal.length := by
  by_contra out
  rw [Normal,List.getD_eq_getElem?_getD,List.getElem?_eq_none (Nat.le_of_not_lt out)] at normal
  cases normal

structure Run (isNormal : List Bool) (i j : Nat) : Prop where
  start : i = 0 ∨ Normal isNormal (i-1)
  stop : j = isNormal.length ∨ Normal isNormal j
  bound : j ≤ isNormal.length
  inside : ∀ m, i ≤ m → m < j → ¬Normal isNormal m

theorem runLength (flags : List Bool) : let r := (flags.takeWhile (!·)).length
    r ≤ flags.length ∧ (r = flags.length ∨ flags.getD r false = true) ∧ ∀ m < r, ¬flags.getD m false = true := by
  induction flags with
  | nil => exact ⟨le_refl _,.inl rfl,fun _ less => absurd less (Nat.not_lt_zero _)⟩
  | cons flag flags ih =>
    dsimp only at ih ⊢
    cases flag with
    | true => exact ⟨Nat.zero_le _,.inr rfl,fun _ less => absurd less (Nat.not_lt_zero _)⟩
    | false =>
      obtain ⟨bound,stop,inside⟩ := ih
      rw [List.takeWhile_cons_of_pos rfl,List.length_cons,List.length_cons]
      refine ⟨Nat.succ_le_succ bound,stop.imp (congrArg Nat.succ) id,fun m less => ?_⟩
      cases m with
      | zero => exact Bool.false_ne_true
      | succ m => exact inside m (Nat.lt_of_succ_lt_succ less)

theorem runEndRun (start : i = 0 ∨ Normal isNormal (i-1)) (bound : i < isNormal.length) (broken : ¬Normal isNormal i) :
    Run isNormal i (runEnd isNormal i) ∧ i < runEnd isNormal i := by
  obtain ⟨within,stop,inside⟩ := runLength (isNormal.drop i)
  have shifted : ∀ m, (isNormal.drop i).getD m false = isNormal.getD (i+m) false := by
    intro m
    rw [List.getD_eq_getElem?_getD,List.getElem?_drop,← List.getD_eq_getElem?_getD]
  rw [List.length_drop] at within stop
  have first : 0 < ((isNormal.drop i).takeWhile (!·)).length := by
    by_contra none_
    rcases stop with all | normal
    · omega
    · rw [Nat.eq_zero_of_not_pos none_,shifted] at normal
      exact broken normal
  refine ⟨⟨start,?_,by unfold runEnd; omega,fun m from_ less => ?_⟩,by unfold runEnd; omega⟩
  · rcases stop with all | normal
    · exact .inl (by unfold runEnd; omega)
    · rw [shifted] at normal
      exact .inr normal
  · have before : m-i < ((isNormal.drop i).takeWhile (!·)).length := by unfold runEnd at less; omega
    have not_ := inside _ before
    rwa [shifted,Nat.add_sub_cancel' from_] at not_

/- Two positions with no kept one from one to the other lie in one run. -/
theorem runSame {a b c d m : Nat} (one : Run isNormal a b) (other : Run isNormal c d) (left : a ≤ k ∧ k < b)
    (right : c ≤ m ∧ m < d) (order : k ≤ m) (broken : ∀ p, k ≤ p → p ≤ m → ¬Normal isNormal p) : a = c ∧ b = d := by
  have starts : a = c := by
    rcases Nat.lt_trichotomy a c with less | same | more
    · rcases other.start with zero | normal
      · omega
      · by_cases far : k ≤ c-1
        · exact absurd normal (broken _ far (by omega))
        · exact absurd normal (one.inside _ (by omega) (by omega))
    · exact same
    · rcases one.start with zero | normal
      · omega
      · exact absurd normal (other.inside _ (by omega) (by omega))
  have stops : b = d := by
    rcases Nat.lt_trichotomy b d with less | same | more
    · rcases one.stop with all | normal
      · have bound := other.bound
        omega
      · exact absurd normal (other.inside _ (by omega) less)
    · exact same
    · rcases other.stop with all | normal
      · have bound := one.bound
        omega
      · exact absurd normal (one.inside _ (by omega) more)
  exact ⟨starts,stops⟩

def leftOf (data : List ℚ) (i : Nat) : Option ℚ := if i = 0 then none else some (sample data (i-1))

def rightOf (isNormal : List Bool) (data : List ℚ) (j : Nat) : Option ℚ :=
  if j = isNormal.length then none else some (sample data j)

def Settled (isNormal : List Bool) (data : List ℚ) (k : Nat) (x : ℚ) : Prop :=
  (Normal isNormal k → x = sample data k) ∧ (¬Normal isNormal k → ∃ i j, Run isNormal i j ∧ (i ≤ k ∧ k < j) ∧
    x = newVal (leftOf data i) (rightOf isNormal data j) i j k)

structure Repairing (isNormal : List Bool) (data : List ℚ) (state : Nat × List ℚ) : Prop where
  length : state.2.length = isNormal.length
  bound : state.1 ≤ isNormal.length
  seam : state.1 = isNormal.length ∨ Normal isNormal state.1 ∨ state.1 = 0 ∨ Normal isNormal (state.1-1)
  done : ∀ k < state.1, Settled isNormal data k (sample state.2 k)
  todo : ∀ k, state.1 ≤ k → sample state.2 k = sample data k

theorem sampleGet {k : Nat} (bound : k < result.length) : result[k]? = some (sample result k) := by
  rw [sample,List.getD_eq_getElem?_getD,List.getElem?_eq_getElem bound]
  rfl

theorem leftValOf (start : i = 0 ∨ Normal isNormal (i-1)) (length : result.length = isNormal.length)
    (done : ∀ k < i, Settled isNormal data k (sample result k)) : leftVal isNormal result i = leftOf data i := by
  cases i with
  | zero => rfl
  | succ i =>
    have normal : Normal isNormal i := start.resolve_left (Nat.succ_ne_zero i)
    unfold leftVal leftOf
    rw [List.range_succ,List.reverse_append,List.reverse_singleton,List.singleton_append,List.find?_cons_of_pos (p := fun k => isNormal.getD k false) normal,
      Option.bind_some,sampleGet (length ▸ normalBound normal),(done i (Nat.lt_succ_self i)).1 normal,
      if_neg (Nat.succ_ne_zero i),Nat.add_sub_cancel]

theorem rightValOf (run : Run isNormal i j) (length : result.length = isNormal.length)
    (todo : ∀ k, j ≤ k → sample result k = sample data k) : rightVal isNormal result j = rightOf isNormal data j := by
  unfold rightVal rightOf
  split_ifs with all
  · rw [all,Nat.sub_self]
    rfl
  · have normal := run.stop.resolve_left all
    have more : isNormal.length-j = isNormal.length-j-1+1 := by
      have bound := normalBound normal
      omega
    rw [more,List.range'_succ,List.find?_cons_of_pos (p := fun k => isNormal.getD k false) normal,Option.bind_some,
      sampleGet (length ▸ normalBound normal),todo j (le_refl j)]

theorem sampleMapIdx (f : Nat → ℚ → ℚ) (bound : k < result.length) :
    sample (result.mapIdx f) k = f k (sample result k) := by
  rw [sample,List.getD_eq_getElem?_getD,List.getElem?_mapIdx,sampleGet bound]
  rfl

theorem repairNext (repairing : Repairing isNormal data (i,result)) {next : Nat × List ℚ}
    (turned : repairBody isNormal (i,result) = .next next) :
    Repairing isNormal data next ∧ i < next.1 := by
  obtain ⟨length,bound,seam,done,todo⟩ := repairing
  dsimp only at length bound seam done todo
  unfold repairBody at turned
  dsimp only at turned
  split_ifs at turned with more normal
  · cases turned
    refine ⟨⟨length,more,.inr (.inr (.inr normal)),fun k less => ?_,fun k after => todo k (Nat.le_of_succ_le after)⟩,
      Nat.lt_succ_self i⟩
    rcases Nat.lt_succ_iff_lt_or_eq.mp less with earlier | rfl
    · exact done k earlier
    · exact ⟨fun _ => todo k (le_refl k),fun broken => absurd normal broken⟩
  · cases turned
    have start : i = 0 ∨ Normal isNormal (i-1) := by
      rcases seam with all | here | before
      · omega
      · exact absurd here normal
      · exact before
    obtain ⟨run,after⟩ := runEndRun start more normal
    have untouched : ∀ k, ¬(i ≤ k ∧ k < runEnd isNormal i) → sample (result.mapIdx fun k x =>
        if i ≤ k ∧ k < runEnd isNormal i then newVal (leftVal isNormal result i) (rightVal isNormal result (runEnd isNormal i))
          i (runEnd isNormal i) k else x) k = sample result k := by
      intro k outside
      by_cases within : k < result.length
      · rw [sampleMapIdx _ within,if_neg outside]
      · rw [sample,sample,List.getD_eq_getElem?_getD,List.getD_eq_getElem?_getD,
          List.getElem?_eq_none (by rw [List.length_mapIdx]; omega),List.getElem?_eq_none (by omega)]
    refine ⟨⟨by rw [List.length_mapIdx,length],run.bound,?_,fun k less => ?_,fun k from_ => ?_⟩,after⟩
    · exact run.stop.imp id .inl
    · by_cases early : k < i
      · rw [untouched k (by omega)]
        exact done k early
      · have inside : i ≤ k ∧ k < runEnd isNormal i := ⟨Nat.le_of_not_lt early,less⟩
        refine ⟨fun kept => absurd kept (run.inside k inside.1 inside.2),fun _ => ⟨i,_,run,inside,?_⟩⟩
        rw [sampleMapIdx _ (by have top := run.bound; omega),if_pos inside,leftValOf start length done,
          rightValOf run length fun k later => todo k (after.le.trans later)]
    · have behind : runEnd isNormal i ≤ k := from_
      rw [untouched k (by omega)]
      exact todo k (after.le.trans behind)

theorem repaired (length : data.length = isNormal.length) :
    ∃ result, run (repairBody isNormal) (isNormal.length+1) (0,data) = some result ∧ result.length = isNormal.length ∧
      ∀ k < isNormal.length, Settled isNormal data k (sample result k) := by
  have start : Repairing isNormal data (0,data) := ⟨length,Nat.zero_le _,.inr (.inr (.inl rfl)),
    fun _ less => absurd less (Nat.not_lt_zero _),fun _ _ => rfl⟩
  refine runBounded (fun state : Nat × List ℚ => isNormal.length-state.1) (fun state next repairing turned => ?_)
    (fun state result repairing done => ?_) start (by dsimp only; omega)
  · obtain ⟨kept,more⟩ := repairNext repairing turned
    have bound := kept.bound
    exact ⟨kept,by omega⟩
  · obtain ⟨i,values⟩ := state
    unfold repairBody at done
    dsimp only at done
    split_ifs at done with more
    cases done
    exact ⟨repairing.length,fun k less => repairing.done k (by dsimp only; omega)⟩

end Runs

section Settled
variable {isNormal : List Bool} {data : List ℚ} {i j k : Nat} {x : ℚ}

def Rising (isNormal : List Bool) (data : List ℚ) : Prop :=
  ∀ a b, a < b → Normal isNormal a → Normal isNormal b → sample data a ≤ sample data b

theorem runOrdered (rising : Rising isNormal data) (run : Run isNormal i j) (inside : i ≤ k ∧ k < j) (left : i ≠ 0)
    (right : j ≠ isNormal.length) : sample data (i-1) ≤ sample data j :=
  rising _ _ (by omega) (run.start.resolve_left left) (run.stop.resolve_left right)

theorem leftSome (left : i ≠ 0) : leftOf data i = some (sample data (i-1)) := if_neg left

theorem rightSome (right : j ≠ isNormal.length) : rightOf isNormal data j = some (sample data j) := if_neg right

theorem runAbove (rising : Rising isNormal data) (run : Run isNormal i j) (inside : i ≤ k ∧ k < j) (left : i ≠ 0) :
    sample data (i-1) ≤ newVal (leftOf data i) (rightOf isNormal data j) i j k := by
  rw [leftSome left]
  by_cases right : j = isNormal.length
  · rw [rightOf,if_pos right,newValLeft]
  · rw [rightSome right]
    exact (newValBetween (runOrdered rising run inside left right) inside).1

theorem runBelow (rising : Rising isNormal data) (run : Run isNormal i j) (inside : i ≤ k ∧ k < j)
    (right : j ≠ isNormal.length) : newVal (leftOf data i) (rightOf isNormal data j) i j k ≤ sample data j := by
  rw [rightSome right]
  by_cases left : i = 0
  · rw [leftOf,if_pos left,newValRight]
  · rw [leftSome left]
    exact (newValBetween (runOrdered rising run inside left right) inside).2

theorem settledAbove (rising : Rising isNormal data) (settled : Settled isNormal data k x) {c : Nat}
    (normal : Normal isNormal c) (before : c ≤ k) : sample data c ≤ x := by
  by_cases kept : Normal isNormal k
  · rw [settled.1 kept]
    rcases Nat.eq_or_lt_of_le before with rfl | less
    · exact le_refl _
    · exact rising _ _ less normal kept
  · obtain ⟨i,j,run,inside,rfl⟩ := settled.2 kept
    have outside : c < i := by
      by_contra within
      exact run.inside c (Nat.le_of_not_lt within) (by omega) normal
    have left : i ≠ 0 := Nat.ne_zero_of_lt outside
    have near : sample data c ≤ sample data (i-1) := by
      rcases Nat.eq_or_lt_of_le (Nat.le_sub_one_of_lt outside) with rfl | less
      · exact le_refl _
      · exact rising _ _ less normal (run.start.resolve_left left)
    exact near.trans (runAbove rising run inside left)

theorem settledBelow (rising : Rising isNormal data) (settled : Settled isNormal data k x) {c : Nat}
    (normal : Normal isNormal c) (after : k ≤ c) : x ≤ sample data c := by
  by_cases kept : Normal isNormal k
  · rw [settled.1 kept]
    rcases Nat.eq_or_lt_of_le after with rfl | less
    · exact le_refl _
    · exact rising _ _ less kept normal
  · obtain ⟨i,j,run,inside,rfl⟩ := settled.2 kept
    have outside : j ≤ c := by
      by_contra within
      exact run.inside c (by omega) (Nat.lt_of_not_le within) normal
    have right : j ≠ isNormal.length := by
      have bound := normalBound normal
      omega
    have near : sample data j ≤ sample data c := by
      rcases Nat.eq_or_lt_of_le outside with rfl | less
      · exact le_refl _
      · exact rising _ _ less (run.stop.resolve_left right) normal
    exact (runBelow rising run inside right).trans near

/- Either a kept position lies between the two, or both are in one run. -/
theorem settledMono (rising : Rising isNormal data) {m : Nat} {y : ℚ} (order : k ≤ m)
    (first : Settled isNormal data k x) (second : Settled isNormal data m y) (some_ : ∃ c, Normal isNormal c) : x ≤ y := by
  by_cases between : ∃ c, k ≤ c ∧ c ≤ m ∧ Normal isNormal c
  · obtain ⟨c,after,before,normal⟩ := between
    exact (settledBelow rising first normal after).trans (settledAbove rising second normal before)
  · have broken : ∀ c, k ≤ c → c ≤ m → ¬Normal isNormal c := fun c after before normal => between ⟨c,after,before,normal⟩
    obtain ⟨i,j,run,inside,rfl⟩ := first.2 (broken k (le_refl k) order)
    obtain ⟨a,b,other,within,rfl⟩ := second.2 (broken m order (le_refl m))
    obtain ⟨rfl,rfl⟩ := runSame run other inside within order broken
    by_cases left : i = 0
    · by_cases right : j = isNormal.length
      · obtain ⟨c,normal⟩ := some_
        exact absurd normal (run.inside c (by omega) (right ▸ normalBound normal))
      · rw [leftOf,if_pos left,rightSome right,newValRight,newValRight]
    · by_cases right : j = isNormal.length
      · rw [leftSome left,rightOf,if_pos right,newValLeft,newValLeft]
      · rw [leftSome left,rightSome right]
        exact newValMono (runOrdered rising run inside left right) order

theorem settledFirst (settled : Settled isNormal data k x) (some_ : ∃ c, Normal isNormal c)
    (none_ : ∀ c, Normal isNormal c → k < c) : ∃ b, Normal isNormal b ∧ (∀ c, Normal isNormal c → b ≤ c) ∧ x = sample data b := by
  obtain ⟨i,j,run,inside,rfl⟩ := settled.2 fun kept => (none_ k kept).ne rfl
  have left : i = 0 := run.start.resolve_right fun normal => by
    have less := none_ _ normal
    omega
  have behind : ∀ c, Normal isNormal c → j ≤ c := fun c normal => by
    by_contra within
    exact run.inside c (by omega) (Nat.lt_of_not_le within) normal
  obtain ⟨c,normal⟩ := some_
  have right : j ≠ isNormal.length := by
    have after := behind c normal
    have bound := normalBound normal
    omega
  refine ⟨j,run.stop.resolve_left right,behind,?_⟩
  rw [leftOf,if_pos left,rightSome right,newValRight]

theorem settledLast (settled : Settled isNormal data k x) (some_ : ∃ c, Normal isNormal c)
    (none_ : ∀ c, Normal isNormal c → c < k) : ∃ b, Normal isNormal b ∧ (∀ c, Normal isNormal c → c ≤ b) ∧ x = sample data b := by
  obtain ⟨i,j,run,inside,rfl⟩ := settled.2 fun kept => (none_ k kept).ne rfl
  have right : j = isNormal.length := run.stop.resolve_right fun normal => by
    have less := none_ _ normal
    omega
  have before : ∀ c, Normal isNormal c → c < i := fun c normal => by
    by_contra within
    exact run.inside c (Nat.le_of_not_lt within) (right ▸ normalBound normal) normal
  obtain ⟨c,normal⟩ := some_
  have left : i ≠ 0 := Nat.ne_zero_of_lt (before c normal)
  refine ⟨i-1,run.start.resolve_left left,fun c normal => Nat.le_sub_one_of_lt (before c normal),?_⟩
  rw [leftSome left,rightOf,if_pos right,newValLeft]

end Settled

section Fixed
variable {data : List ℚ} {kept : List Nat} {fixed : List Int}

theorem truncatedMono {x y : ℚ} (order : x ≤ y) : truncated x ≤ truncated y := by
  unfold truncated
  have inner : (if 0 ≤ x then ⌊x⌋ else ⌈x⌉) ≤ if 0 ≤ y then ⌊y⌋ else ⌈y⌉ := by
    split_ifs with first second second
    · exact Int.floor_mono order
    · exact absurd (first.trans order) second
    · have below : ⌈x⌉ ≤ 0 := Int.ceil_le.mpr (by push_cast; exact (lt_of_not_ge first).le)
      exact below.trans (Int.floor_nonneg.mpr second)
    · exact Int.ceil_mono order
  exact max_le_max_left _ (min_le_min_left _ inner)

structure Repaired (data : List ℚ) (kept : List Nat) (k : Nat) (value : Int) : Prop where
  above : ∀ a ∈ kept, a < k → truncated (sample data a) ≤ value
  below : ∀ b ∈ kept, k < b → value ≤ truncated (sample data b)
  first : (∀ a ∈ kept, k < a) → ∃ b ∈ kept, (∀ c ∈ kept, b ≤ c) ∧ value = truncated (sample data b)
  last : (∀ b ∈ kept, b < k) → ∃ a ∈ kept, (∀ c ∈ kept, c ≤ a) ∧ value = truncated (sample data a)

structure Fixed (data : List ℚ) (kept : List Nat) (fixed : List Int) : Prop where
  length : fixed.length = data.length
  ordered : fixed.Pairwise (· ≤ ·)
  same : ∀ k ∈ kept, fixed[k]? = some (truncated (sample data k))
  repaired : ∀ k < data.length, k ∉ kept → ∃ value, fixed[k]? = some value ∧ Repaired data kept k value

theorem normalKept {n k : Nat} :
    Normal ((List.range n).map fun i => decide (i ∈ kept)) k ↔ k < n ∧ k ∈ kept := by
  unfold Normal
  rw [List.getD_eq_getElem?_getD,List.getElem?_map]
  by_cases bound : k < n
  · rw [List.getElem?_range bound]
    simp [bound]
  · rw [List.getElem?_eq_none (by rw [List.length_range]; omega)]
    simp [bound]

theorem fixedOf {result : List ℚ} (longest : Longest (InOrder data) data.length kept) (some_ : 0 < data.length)
    (length : result.length = data.length)
    (settled : ∀ k < data.length, Settled ((List.range data.length).map fun i => decide (i ∈ kept)) data k (sample result k)) :
    Fixed data kept (result.map truncated) := by
  have normal : ∀ k, Normal ((List.range data.length).map fun i => decide (i ∈ kept)) k ↔ k ∈ kept := fun k =>
    normalKept.trans (and_iff_right_of_imp (longest.bound k))
  have rising : Rising ((List.range data.length).map fun i => decide (i ∈ kept)) data := by
    intro a b less first second
    exact chainRelated longest.toChain ((normal a).mp first) ((normal b).mp second) less
  have exists_ : ∃ c, Normal ((List.range data.length).map fun i => decide (i ∈ kept)) c := by
    obtain ⟨i,inside⟩ := longestNonempty longest some_
    exact ⟨i,(normal i).mpr inside⟩
  have get : ∀ k < data.length, (result.map truncated)[k]? = some (truncated (sample result k)) := by
    intro k bound
    rw [List.getElem?_map,sampleGet (length ▸ bound)]
    rfl
  refine ⟨by rw [List.length_map,length],?_,fun k inside => ?_,fun k bound outside => ⟨_,get k bound,?_⟩⟩
  · refine List.pairwise_iff_getElem.mpr fun k m first second less => ?_
    rw [List.length_map,length] at first second
    have left := (List.getElem?_eq_some_iff.mp (get k first)).2
    have right := (List.getElem?_eq_some_iff.mp (get m second)).2
    rw [left,right]
    exact truncatedMono (settledMono rising less.le (settled k first) (settled m second) exists_)
  · have bound := longest.bound k inside
    rw [get k bound,(settled k bound).1 ((normal k).mpr inside)]
  · refine ⟨fun a inside less => ?_,fun b inside less => ?_,fun none_ => ?_,fun none_ => ?_⟩
    · exact truncatedMono (settledAbove rising (settled k bound) ((normal a).mpr inside) less.le)
    · exact truncatedMono (settledBelow rising (settled k bound) ((normal b).mpr inside) less.le)
    · obtain ⟨b,inside,least,same⟩ := settledFirst (settled k bound) exists_ fun c kept => none_ c ((normal c).mp kept)
      exact ⟨b,(normal b).mp inside,fun c among => least c ((normal c).mpr among),congrArg truncated same⟩
    · obtain ⟨b,inside,most,same⟩ := settledLast (settled k bound) exists_ fun c kept => none_ c ((normal c).mp kept)
      exact ⟨b,(normal b).mp inside,fun c among => most c ((normal c).mpr among),congrArg truncated same⟩

theorem fixedWhole (longest : Longest (InOrder data) data.length kept) (fixes : Fixed data kept fixed)
    (ordered : data.Pairwise (· ≤ ·)) : fixed = data.map truncated := by
  refine List.ext_getElem? fun k => ?_
  by_cases bound : k < data.length
  · have all : ∀ a b, a < b → b < data.length → InOrder data a b := by
      intro a b less within
      have before : a < data.length := less.trans within
      have related := List.pairwise_iff_getElem.mp ordered a b before within less
      have left := (List.getElem?_eq_some_iff.mp (sampleGet before)).2
      have right := (List.getElem?_eq_some_iff.mp (sampleGet within)).2
      rwa [left,right] at related
    rw [fixes.same k (longestAll longest all bound),List.getElem?_map,sampleGet bound]
    rfl
  · rw [List.getElem?_eq_none (by rw [fixes.length]; omega),List.getElem?_eq_none (by rw [List.length_map]; omega)]

/-- The timestamps come back in order and as many as before: those on a longest nondecreasing subsequence as they
were, the others between the kept ones around them. A list in order is only truncated. -/
theorem timestampsFixed (data : List ℚ) : ∃ kept fixed, fixTimestamp data = some fixed ∧
    Longest (InOrder data) data.length kept ∧ Fixed data kept fixed ∧
    (data.Pairwise (· ≤ ·) → fixed = data.map truncated) := by
  by_cases empty : data = []
  · subst empty
    refine ⟨[],[],rfl,⟨chainNil,fun other chain => ?_⟩,⟨rfl,.nil,fun _ inside => (by cases inside),
      fun _ less => absurd less (Nat.not_lt_zero _)⟩,fun _ => rfl⟩
    cases other with
    | nil => exact le_refl _
    | cons i other => exact absurd (chain.bound i List.mem_cons_self) (Nat.not_lt_zero _)
  · have some_ := List.length_pos_of_ne_nil empty
    obtain ⟨kept,back,longest⟩ := @keptLongest data _ some_
    obtain ⟨result,ran,length,settled⟩ := @repaired ((List.range data.length).map fun i => decide (i ∈ kept)) data
      (by rw [List.length_map,List.length_range])
    rw [List.length_map,List.length_range] at ran length settled
    have fixes := fixedOf longest some_ length settled
    refine ⟨kept,result.map truncated,?_,longest,fixes,fixedWhole longest fixes⟩
    rw [fixTimestamp,if_neg empty]
    simp only [back,Option.bind_eq_bind,Option.bind_some,ran]

example : fixTimestamp [0,100,900,800,700,300,400] = some [0,100,150,200,250,300,400] := by decide +kernel

end Fixed

end Qwen3Asr.FixTimestamp
