import Qwen3Asr.AsrOutput
import Qwen3Asr.Library.Effect
import Qwen3Asr.Library.ReservedWord
import Qwen3Asr.Library.Wording

/-! The words of a text as the forced aligner takes them. Texts are lists of characters. The tables of Unicode, the
Japanese segmenter and the Korean dictionary are parameters. -/
namespace Qwen3Asr.AlignTokens
open Library.Effect Library.ReservedWord Library.Wording MediaData AsrOutput

abbrev Token := List Char

inductive GeneralCategory where
  | uppercaseLetter | lowercaseLetter | titlecaseLetter | modifierLetter | otherLetter
  | nonspacingMark | spacingMark | enclosingMark
  | decimalNumber | letterNumber | otherNumber
  | connectorPunctuation | dashPunctuation | openPunctuation | closePunctuation
  | initialPunctuation | finalPunctuation | otherPunctuation
  | mathSymbol | currencySymbol | modifierSymbol | otherSymbol
  | spaceSeparator | lineSeparator | paragraphSeparator
  | control | format | surrogate | privateUse | unassigned
  deriving DecidableEq, Repr

structure Unicode where
  generalCategory : Char → GeneralCategory
  nfkc : List Char → List Char

structure KoreanDict where
  words : List Token
  maxLenChars : Nat
  deriving DecidableEq, Repr

structure JapaneseMergeTerms where
  terms : List Token
  maxChars : Nat
  deriving DecidableEq, Repr

section Characters

def APOSTROPHE : Char := Char.ofNat 0x27

def isLetterOrNumber : GeneralCategory → Bool
  | .uppercaseLetter | .lowercaseLetter | .titlecaseLetter | .modifierLetter | .otherLetter
  | .decimalNumber | .letterNumber | .otherNumber => true
  | _ => false

def isKeptChar (u : Unicode) (ch : Char) : Bool := ch = APOSTROPHE || isLetterOrNumber (u.generalCategory ch)

def cleanToken (u : Unicode) (token : Token) : Token := token.filter (isKeptChar u)

def isCjkChar (ch : Char) : Bool :=
  let code := ch.toNat
  (0x4E00 ≤ code ∧ code ≤ 0x9FFF) ∨ (0x3400 ≤ code ∧ code ≤ 0x4DBF) ∨ (0x20000 ≤ code ∧ code ≤ 0x2A6DF) ∨
    (0x2A700 ≤ code ∧ code ≤ 0x2B73F) ∨ (0x2B740 ≤ code ∧ code ≤ 0x2B81F) ∨ (0x2B820 ≤ code ∧ code ≤ 0x2CEAF) ∨
    (0xF900 ≤ code ∧ code ≤ 0xFAFF)

def japaneseScriptKind (ch : Char) : Option Nat :=
  let code := ch.toNat
  if isCjkChar ch then some 0
  else if 0x3040 ≤ code ∧ code ≤ 0x309F then some 1
  else if (0x30A0 ≤ code ∧ code ≤ 0x30FF) ∨ (0xFF65 ≤ code ∧ code ≤ 0xFF9F) then some 2
  else none

def isHiraganaChar (ch : Char) : Bool := 0x3040 ≤ ch.toNat ∧ ch.toNat ≤ 0x309F

def isHiraganaSmallChar (ch : Char) : Bool := "ゃゅょぁぃぅぇぉゎっゕゖ".toList.contains ch

def isParticleChar (ch : Char) : Bool := "はがをにでへとのもや".toList.contains ch

def isParticleToken : Token → Bool
  | [ch] => isParticleChar ch
  | _ => false

def isFullwidthKatakanaChar (ch : Char) : Bool := 0x30A0 ≤ ch.toNat ∧ ch.toNat ≤ 0x30FF

def isHiraganaToken (token : Token) : Bool := token ≠ [] && token.all isHiraganaChar

end Characters

section Repairs

def bridges (cur next : Token) (_ : List Token) : Bool :=
  isHiraganaToken cur && isHiraganaToken next && !isParticleToken cur && cur.length ≤ 2 && 4 ≤ next.length &&
    next.zipIdx.any fun (ch,idx) => 0 < idx && idx+1 < next.length && isParticleChar ch

def repairHiraganaBridgeFragments (tokens : List Token) : List Token := joinPairs bridges tokens

def continues (cur next : Token) : List Token → Bool
  | after::_ => isHiraganaToken cur && isHiraganaToken next && isParticleToken after && !isParticleToken next &&
      (next.length = 1 || next.head?.any isHiraganaSmallChar)
  | [] => false

def repairHiraganaPrefixFragments (tokens : List Token) : List Token := joinPairs continues tokens

end Repairs

section Splits

def isHonorific (chars : Token) : Bool :=
  let n := chars.length
  5 ≤ n && chars[0]? = some 'お' && chars[n-2]? = some 'さ' && chars[n-1]? = some 'ん' && 2 ≤ n-3 &&
    (slice chars 1 (n-2)).all isHiraganaChar

def splitPositions (chars : Token) : List Nat :=
  (chars.zipIdx.filter fun (ch,i) => i ≠ 0 && i+1 < chars.length && isParticleChar ch).map Prod.snd

def splitAtPositions (chars : Token) (start : Nat) : List Nat → List Token
  | [] => if start < chars.length then [chars.drop start] else []
  | i::positions =>
    (if start < i then [slice chars start i] else []) ++ slice chars i (i+1)::splitAtPositions chars (i+1) positions

def endsInPair (seg : Token) (a b : Char) : Bool :=
  let m := seg.length
  4 ≤ m && seg[m-2]? = some a && seg[m-1]? = some b && (seg.take (m-2)).all isHiraganaChar

def splitEnding (seg : Token) : List Token :=
  let m := seg.length
  if endsInPair seg 'か' 'な' then [seg.take (m-2),['か'],['な']]
  else if endsInPair seg 'よ' 'ね' then [seg.take (m-2),['よ'],['ね']]
  else if 3 ≤ m && seg[m-1]?.any ("かねよな".toList.contains ·) && (seg.take (m-1)).all isHiraganaChar then
    [seg.take (m-1),slice seg (m-1) m]
  else [seg]

def splitHiraganaParticleToken (token : Token) : List Token :=
  let n := token.length
  if !token.all isHiraganaChar then [token]
  else if isHonorific token then [['お'],slice token 1 (n-2),['さ','ん']]
  else if n < 6 then [token]
  else match splitPositions token with
    | [] => [token]
    | [i] =>
      let out := if n < 7 ∨ i < 2 ∨ n-(i+1) < 2 then [token]
        else [slice token 0 i,slice token i (i+1),token.drop (i+1)]
      (out.flatMap splitEnding).filter (· ≠ [])
    | positions => ((splitAtPositions token 0 positions).flatMap splitEnding).filter (· ≠ [])

def splitHiraganaParticleRuns (tokens : List Token) : List Token := tokens.flatMap splitHiraganaParticleToken

def splitAsciiDigitToken (token : Token) : List Token :=
  if 1 < token.length && token.all Char.isDigit then token.map ([·]) else [token]

def splitAsciiDigitRuns (tokens : List Token) : List Token := tokens.flatMap splitAsciiDigitToken

def KATAKANA : Token := "カタカナ".toList

def splitKatakanaToken (token : Token) : List Token :=
  let front := token.take (token.length-KATAKANA.length)
  if token.all isFullwidthKatakanaChar && KATAKANA.isSuffixOf token && token ≠ KATAKANA && 2 ≤ front.length then
    [front,KATAKANA]
  else [token]

def splitKatakanaCompounds (tokens : List Token) : List Token := tokens.flatMap splitKatakanaToken

end Splits

section Merges

def singleKanji : Token → Option Char
  | [ch] => if isCjkChar ch then some ch else none
  | _ => none

def mergeSingleKanji (kanjiBuf : Token) : List Token → List Token
  | [] => flush kanjiBuf
  | token::rest => match singleKanji token with
    | some ch => mergeSingleKanji (kanjiBuf ++ [ch]) rest
    | none => flush kanjiBuf ++ token::mergeSingleKanji [] rest

def findTerm (t : JapaneseMergeTerms) (taken : Nat) (acc : Token) (best : Option (Nat × Token)) :
    List Token → Option (Nat × Token)
  | [] => best
  | token::rest =>
    let acc := acc ++ token
    if t.maxChars < acc.length then best
    else findTerm t (taken+1) acc (if t.terms.contains acc then some (taken+1,acc) else best) rest

def mergeTerms (t : JapaneseMergeTerms) : Nat → List Token → List Token
  | _, [] => []
  | skip+1, _::rest => mergeTerms t skip rest
  | 0, token::rest => match findTerm t 0 [] none (token::rest) with
    | some (taken,phrase) => phrase::mergeTerms t (taken-1) rest
    | none => token::mergeTerms t 0 rest

def mergeJapaneseTokensWithTerms (tokens : List Token) (t : JapaneseMergeTerms) : List Token :=
  let merged := mergeSingleKanji [] tokens
  if t.maxChars = 0 then merged else mergeTerms t 0 merged

end Merges

section Languages
variable (u : Unicode)

/- Japanese script is kept by kind; a character that is not kept ends a run of others. -/
def scriptRuns (latinBuf jpBuf : Token) (jpKind : Option Nat) : List Char → List Token
  | [] => flush jpBuf ++ flush latinBuf
  | ch::text => match japaneseScriptKind ch with
    | some kind =>
      if jpKind ≠ some kind then flush latinBuf ++ (flush jpBuf ++ scriptRuns [] [ch] (some kind) text)
      else flush latinBuf ++ scriptRuns [] (jpBuf ++ [ch]) (some kind) text
    | none =>
      let jpKind := if jpBuf = [] then jpKind else none
      if isKeptChar u ch then flush jpBuf ++ scriptRuns (latinBuf ++ [ch]) [] jpKind text
      else flush jpBuf ++ (flush latinBuf ++ scriptRuns [] [] jpKind text)

def tokenizeJapaneseFallback (text : List Char) : List Token :=
  ((scriptRuns u [] [] none text).map (cleanToken u)).filter (· ≠ [])

variable (segment : List Char → Except String (List Token)) (dict : Except String KoreanDict)

def tokenizeJapaneseLindera (text : List Char) : Except String (List Token) := do
  let surfaces ← segment text
  .ok ((surfaces.map (cleanToken u)).filter (· ≠ []))

/- The segmenter's tokens, or the runs of script where it fails or finds none. -/
def japaneseTokens (normalized : List Char) : List Token :=
  match tokenizeJapaneseLindera u segment normalized with
  | .ok tokens => if tokens ≠ [] then tokens else tokenizeJapaneseFallback u normalized
  | .error _ => tokenizeJapaneseFallback u normalized

def tokenizeJapaneseWithTerms (text : List Char) (t : JapaneseMergeTerms) : Except String (List Token) :=
  let tokens := japaneseTokens u segment (u.nfkc text)
  let tokens := repairHiraganaBridgeFragments tokens
  let tokens := splitHiraganaParticleRuns tokens
  let tokens := repairHiraganaPrefixFragments tokens
  let tokens := splitAsciiDigitRuns tokens
  let tokens := splitKatakanaCompounds tokens
  .ok (mergeJapaneseTokensWithTerms tokens t)

def ltokenizerSplitKoreanToken (token : Token) (d : KoreanDict) : Token × Token :=
  let lenChars := token.length
  if lenChars ≤ 2 then (token,[])
  else
    let searchMax := min lenChars d.maxLenChars
    let bestE := (List.range' 2 (searchMax-1)).foldl
      (fun best e => if d.words.contains (token.take e) then some e else best) none
    let e := bestE.getD lenChars
    (token.take e,token.drop e)

def tokenizeKorean (text : List Char) : Except String (List Token) := do
  let d ← dict
  .ok ((splitWhitespace text).flatMap fun raw =>
    let (l,r) := ltokenizerSplitKoreanToken raw d
    flush (cleanToken u l) ++ if r ≠ [] then flush (cleanToken u r) else [])

def splitSegmentFrom (buf : Token) : List Char → List Token
  | [] => flush buf
  | ch::seg => if isCjkChar ch then flush buf ++ [ch]::splitSegmentFrom [] seg else splitSegmentFrom (buf ++ [ch]) seg

def splitSegmentWithChinese (seg : Token) : List Token := splitSegmentFrom [] seg

def tokenizeSpaceLang (text : List Char) : List Token :=
  (splitWhitespace text).flatMap fun seg =>
    let cleaned := cleanToken u seg
    if cleaned = [] then [] else splitSegmentWithChinese cleaned

end Languages

section Prompt

def TIMESTAMP : List Char := "<timestamp>".toList
def AUDIO_TOKENS : List Char := "<|audio_start|><|audio_pad|><|audio_end|>".toList

def inputText (wordList : List Token) : List Char :=
  (wordList.zipIdx.flatMap fun (w,i) => (if 0 < i then TIMESTAMP ++ TIMESTAMP else []) ++ w) ++ (TIMESTAMP ++ TIMESTAMP)

def eqIgnoreAsciiCase (a b : String) : Bool := toAsciiLowercase a.toList = toAsciiLowercase b.toList

def wordListOf (u : Unicode) (segment : List Char → Except String (List Token)) (dict : Except String KoreanDict)
    (t : JapaneseMergeTerms) (text : List Char) (language : String) : Except String (List Token) :=
  if eqIgnoreAsciiCase language "japanese" then tokenizeJapaneseWithTerms u segment text t
  else if eqIgnoreAsciiCase language "korean" then tokenizeKorean u dict text
  else .ok (tokenizeSpaceLang u text)

def encodeTimestamp (u : Unicode) (segment : List Char → Except String (List Token)) (dict : Except String KoreanDict)
    (t : JapaneseMergeTerms) (text language : String) : Except String (List Token × List Char) := do
  let language := trim language
  if trim text = "" then .error "text is empty" else
  let wordList ← wordListOf u segment dict t text.toList language
  if wordList = [] then .error "tokenized word_list is empty" else
  .ok (wordList,AUDIO_TOKENS ++ inputText wordList)

end Prompt

section Passes
variable {chars token : Token} {text : List Char} {tokens : List Token}

theorem cutsLastTwo {a b : Char} (long : 2 ≤ chars.length) (before : chars[chars.length-2]? = some a)
    (last : chars[chars.length-1]? = some b) : chars = chars.take (chars.length-2) ++ [a,b] := by
  obtain ⟨inside,first⟩ := List.getElem?_eq_some_iff.mp before
  obtain ⟨inside',second⟩ := List.getElem?_eq_some_iff.mp last
  have next : chars.length-2+1 = chars.length-1 := by omega
  have done : chars.length-1+1 = chars.length := by omega
  have tail : chars.drop (chars.length-2) = [a,b] := by
    rw [List.drop_eq_getElem_cons inside,first,next,List.drop_eq_getElem_cons inside',second,done,List.drop_length]
  rw [← tail,List.take_append_drop]

theorem cutsTwo {a b : Char} (pair : endsInPair chars a b = true) :
    Cuts chars [chars.take (chars.length-2),[a],[b]] := by
  simp only [endsInPair,Bool.and_eq_true,decide_eq_true_eq] at pair
  obtain ⟨⟨⟨long,before⟩,last⟩,_⟩ := pair
  have whole := cutsLastTwo (by omega) before last
  have some_ : chars.take (chars.length-2) ≠ [] := List.ne_nil_of_length_pos (by rw [List.length_take]; omega)
  refine ⟨?_,by simpa using some_⟩
  conv_rhs => rw [whole]
  simp

theorem cutsEnding (some_ : token ≠ []) : Cuts token (splitEnding token) := by
  unfold splitEnding
  dsimp only
  split_ifs with kana yone particle
  · exact cutsTwo kana
  · exact cutsTwo yone
  · simp only [Bool.and_eq_true,decide_eq_true_eq] at particle
    have long := particle.1.1
    have front : token.take (token.length-1) ≠ [] := List.ne_nil_of_length_pos (by rw [List.length_take]; omega)
    refine cutsCons.mpr ⟨front,_,?_,cutsOne (sliceSome (by omega) (Nat.le_refl _))⟩
    have last : slice token _ _ ++ token.drop _ = token.drop _ := sliceDrop (Nat.sub_le token.length 1)
    rw [List.drop_length,List.append_nil] at last
    rw [last,List.take_append_drop]
  · exact cutsOne some_

theorem cutsPositions {start : Nat} {positions : List Nat} (ordered : positions.Pairwise (· < ·))
    (inside : ∀ i ∈ positions, start ≤ i ∧ i < chars.length) :
    Cuts (chars.drop start) (splitAtPositions chars start positions) := by
  induction positions generalizing start with
  | nil =>
    unfold splitAtPositions
    split_ifs with left
    · exact cutsOne (List.ne_nil_of_length_pos (by rw [List.length_drop]; omega))
    · rw [List.drop_eq_nil_of_le (by omega)]
      exact cutsNil
  | cons i positions ih =>
    obtain ⟨later,ordered⟩ := List.pairwise_cons.mp ordered
    obtain ⟨⟨from_,bound⟩,others⟩ := List.forall_mem_cons.mp inside
    have rest : Cuts (chars.drop (i+1)) (splitAtPositions chars (i+1) positions) :=
      ih ordered fun j member => ⟨later j member,(others j member).2⟩
    have first : Cuts (slice chars start i) (if start < i then [slice chars start i] else []) := by
      split_ifs with less
      · exact cutsOne (sliceSome less (by omega))
      · have empty : slice chars start i = [] := List.eq_nil_of_length_eq_zero (by rw [sliceLength (by omega)]; omega)
        rw [empty]
        exact cutsNil
    rw [← sliceDrop from_,← sliceDrop (Nat.le_succ i)]
    exact cutsAppend first (cutsCons.mpr ⟨sliceSome (Nat.lt_succ_self i) bound,_,rfl,rest⟩)

theorem cutsHonorific (honorific : isHonorific token = true) :
    Cuts token [['お'],slice token 1 (token.length-2),['さ','ん']] := by
  simp only [isHonorific,Bool.and_eq_true,decide_eq_true_eq] at honorific
  obtain ⟨⟨⟨⟨⟨long,first⟩,before⟩,last⟩,several⟩,_⟩ := honorific
  have whole := cutsLastTwo (by omega) before last
  have middle : slice token 1 (token.length-2) ≠ [] := sliceSome (by omega) (Nat.sub_le _ _)
  have front : token.take (token.length-2) = 'お' :: slice token 1 (token.length-2) := by
    cases token with
    | nil => cases first
    | cons c rest =>
      cases first
      rw [List.length_cons] at several ⊢
      rw [show rest.length+1-2 = rest.length-2+1 by omega,List.take_succ_cons,slice]
      rfl
  refine ⟨?_,by simpa using middle⟩
  conv_rhs => rw [whole,front]
  simp

theorem positionsOrdered (chars : Token) : (splitPositions chars).Pairwise (· < ·) ∧
    ∀ i ∈ splitPositions chars, 0 < i ∧ i+1 < chars.length := by
  constructor
  · have indices : (splitPositions chars).Sublist (chars.zipIdx.map Prod.snd) := List.filter_sublist.map Prod.snd
    rw [List.zipIdx_map_snd] at indices
    exact List.Pairwise.sublist indices List.pairwise_lt_range'
  · intro i inside
    obtain ⟨p,kept,rfl⟩ := List.mem_map.mp inside
    have holds := (List.mem_filter.mp kept).2
    simp only [Bool.and_eq_true,decide_eq_true_eq,ne_eq] at holds
    exact ⟨Nat.pos_of_ne_zero holds.1.1,holds.1.2⟩

theorem cutsParticles (some_ : token ≠ []) : Cuts token (splitHiraganaParticleToken token) := by
  have endings {words : List Token} (cuts : Cuts token words) : Cuts token ((words.flatMap splitEnding).filter (· ≠ [])) := by
    have cut := cutsEach cuts fun _ => cutsEnding
    have kept := cutsKept (words.flatMap splitEnding)
    rwa [cut.whole] at kept
  obtain ⟨ordered,inside⟩ := positionsOrdered token
  unfold splitHiraganaParticleToken
  dsimp only
  split_ifs with foreign honorific short
  · exact cutsOne some_
  · exact cutsHonorific honorific
  · exact cutsOne some_
  · split
    · exact cutsOne some_
    · rename_i i only
      rw [only] at inside
      obtain ⟨positive,bound⟩ := inside i (List.mem_singleton_self i)
      refine endings ?_
      split_ifs with close
      · exact cutsOne some_
      · have front : Cuts (slice token 0 i) [slice token 0 i] := cutsOne (sliceSome positive (by omega))
        have rest : Cuts (token.drop i) [slice token i (i+1),token.drop (i+1)] := by
          rw [← sliceDrop (Nat.le_succ i)]
          exact cutsCons.mpr ⟨sliceSome (Nat.lt_succ_self i) (by omega),_,rfl,
            cutsOne (List.ne_nil_of_length_pos (by rw [List.length_drop]; omega))⟩
        have whole : slice token 0 i ++ token.drop i = token.drop 0 := sliceDrop (Nat.zero_le i)
        rw [List.drop_zero] at whole
        conv => arg 1; rw [← whole]
        exact cutsAppend front rest
    · refine endings ?_
      have cut : Cuts (token.drop 0) (splitAtPositions token 0 (splitPositions token)) :=
        cutsPositions ordered fun i member => ⟨Nat.zero_le i,Nat.lt_of_succ_lt (inside i member).2⟩
      rwa [List.drop_zero] at cut

theorem cutsDigits (some_ : token ≠ []) : Cuts token (splitAsciiDigitToken token) := by
  unfold splitAsciiDigitToken
  split_ifs
  · exact cutsLetters
  · exact cutsOne some_

theorem cutsKatakana (some_ : token ≠ []) : Cuts token (splitKatakanaToken token) := by
  unfold splitKatakanaToken
  dsimp only
  split_ifs with compound
  · simp only [Bool.and_eq_true,decide_eq_true_eq] at compound
    obtain ⟨⟨⟨_,ends⟩,_⟩,long⟩ := compound
    obtain ⟨front,rfl⟩ := List.isSuffixOf_iff_suffix.mp ends
    have same : (front ++ KATAKANA).take ((front ++ KATAKANA).length-KATAKANA.length) = front := by simp
    rw [same] at long ⊢
    exact cutsCons.mpr ⟨List.ne_nil_of_length_pos (by omega),KATAKANA,rfl,cutsOne (by decide)⟩
  · exact cutsOne some_

theorem singleKanjiSome {ch : Char} (single : singleKanji token = some ch) : token = [ch] := by
  unfold singleKanji at single
  split at single <;> try contradiction
  split_ifs at single
  rw [Option.some.inj single]

theorem cutsKanji {kanjiBuf : Token} (cuts : Cuts text tokens) :
    Cuts (kanjiBuf ++ text) (mergeSingleKanji kanjiBuf tokens) := by
  induction tokens generalizing kanjiBuf text with
  | nil =>
    have empty : text = [] := cuts.whole.symm
    rw [empty,List.append_nil]
    exact cutsFlush kanjiBuf
  | cons token rest ih =>
    obtain ⟨some_,behind,rfl,others⟩ := cutsCons.mp cuts
    unfold mergeSingleKanji
    cases single : singleKanji token with
    | some ch =>
      rw [singleKanjiSome single,← List.append_assoc]
      exact ih others
    | none => exact cutsAppend (cutsFlush kanjiBuf) (cutsCons.mpr ⟨some_,behind,rfl,@ih _ [] others⟩)

def Spells (tokens : List Token) (best : Option (Nat × Token)) : Prop :=
  ∀ n phrase, best = some (n,phrase) → 0 < n ∧ phrase = (tokens.take n).flatten

theorem termSpells {t : JapaneseMergeTerms} {before : List Token} {best : Option (Nat × Token)}
    (sound : Spells (before ++ tokens) best) :
    Spells (before ++ tokens) (findTerm t before.length before.flatten best tokens) := by
  induction tokens generalizing before best with
  | nil => exact sound
  | cons token rest ih =>
    have acc : before.flatten ++ token = (before ++ [token]).flatten := by simp
    have taken : before.length+1 = (before ++ [token]).length := by simp
    have split : before ++ token::rest = before ++ [token] ++ rest := by simp
    unfold findTerm
    dsimp only
    rw [acc,taken,split]
    rw [split] at sound
    split_ifs with long member
    · exact sound
    · refine ih fun n phrase same => ?_
      cases same
      exact ⟨by simp,by rw [List.take_left]⟩
    · exact ih sound

theorem cutsTerms (t : JapaneseMergeTerms) (skip : Nat) (solid : ∀ token ∈ tokens, token ≠ []) :
    Cuts (tokens.drop skip).flatten (mergeTerms t skip tokens) := by
  induction tokens generalizing skip with
  | nil =>
    rw [List.drop_nil]
    exact cutsNil
  | cons token rest ih =>
    obtain ⟨some_,others⟩ := List.forall_mem_cons.mp solid
    cases skip with
    | succ skip => exact ih skip others
    | zero =>
      unfold mergeTerms
      rw [List.drop_zero]
      cases found : findTerm t 0 [] none (token::rest) with
      | none => exact cutsCons.mpr ⟨some_,_,List.flatten_cons,ih 0 others⟩
      | some best =>
        have nothing : Spells ([] ++ token::rest) none := fun _ _ none_ => by cases none_
        obtain ⟨positive,spelled⟩ := @termSpells _ t [] none nothing best.1 best.2 found
        obtain ⟨k,size⟩ := Nat.exists_eq_add_of_lt positive
        rw [Nat.zero_add] at size
        rw [size,List.nil_append,List.take_succ_cons,List.flatten_cons] at spelled
        dsimp only
        rw [spelled,size,Nat.add_sub_cancel]
        refine cutsCons.mpr ⟨List.append_ne_nil_of_left_ne_nil some_ _,_,?_,ih k others⟩
        rw [List.flatten_cons,List.append_assoc,← List.flatten_append,List.take_append_drop]

theorem cutsMerged (t : JapaneseMergeTerms) (cuts : Cuts text tokens) : Cuts text (mergeJapaneseTokensWithTerms tokens t) := by
  have kanji : Cuts text (mergeSingleKanji [] tokens) := @cutsKanji _ _ [] cuts
  unfold mergeJapaneseTokensWithTerms
  dsimp only
  split_ifs
  · exact kanji
  · have merged := cutsTerms t 0 kanji.solid
    rwa [List.drop_zero,kanji.whole] at merged

end Passes

section Conservation
variable {u : Unicode} {segment : List Char → Except String (List Token)}

/- What Unicode says of the separators of words and of the bracket that opens a marker. -/
structure Separators (u : Unicode) : Prop where
  whitespace : ∀ c, isWhitespace c = true → isLetterOrNumber (u.generalCategory c) = false
  bracket : u.generalCategory '<' = .mathSymbol

theorem scriptRunsKept (text : List Char) {latinBuf jpBuf : Token} (jpKind : Option Nat) (one : latinBuf = [] ∨ jpBuf = []) :
    (scriptRuns u latinBuf jpBuf jpKind text).flatten.filter (isKeptChar u) =
      (latinBuf ++ jpBuf ++ text).filter (isKeptChar u) := by
  have swap : jpBuf ++ latinBuf = latinBuf ++ jpBuf := by rcases one with rfl | rfl <;> simp
  induction text generalizing latinBuf jpBuf jpKind with
  | nil => rw [scriptRuns,List.flatten_append,flushFlatten,flushFlatten,swap,List.append_nil]
  | cons ch text ih =>
    unfold scriptRuns
    cases japaneseScriptKind ch with
    | some kind =>
      dsimp only
      split_ifs
      · simp [flushFlatten,ih _ (Or.inl rfl)]
      · simp [flushFlatten,ih _ (Or.inl rfl)]
    | none =>
      dsimp only
      generalize (if jpBuf = [] then jpKind else none) = kind
      rw [← swap]
      split_ifs with kept
      · simp [flushFlatten,ih kind (Or.inr rfl),kept]
      · simp [flushFlatten,ih kind (Or.inl rfl),kept]

theorem cutsFallback (text : List Char) : Cuts (cleanToken u text) (tokenizeJapaneseFallback u text) := by
  have cut := cutsCleaned (isKeptChar u) (scriptRuns u [] [] none text)
  rwa [scriptRunsKept text none (.inl rfl)] at cut

theorem cutsJapaneseTokens (whole : ∀ text surfaces, segment text = .ok surfaces → surfaces.flatten = text)
    (normalized : List Char) : Cuts (cleanToken u normalized) (japaneseTokens u segment normalized) := by
  unfold japaneseTokens
  split
  · rename_i tokens found
    split_ifs with some_
    · obtain ⟨surfaces,segmented,same⟩ := exceptBind.mp found
      have cut := cutsCleaned (isKeptChar u) surfaces
      rw [whole normalized surfaces segmented] at cut
      cases same
      exact cut
    · exact cutsFallback normalized
  · exact cutsFallback normalized

theorem cutsJapanese (whole : ∀ text surfaces, segment text = .ok surfaces → surfaces.flatten = text)
    (t : JapaneseMergeTerms) (text : List Char) :
    ∃ tokens, tokenizeJapaneseWithTerms u segment text t = .ok tokens ∧ Cuts (cleanToken u (u.nfkc text)) tokens := by
  have segmented : Cuts (cleanToken u (u.nfkc text)) (japaneseTokens u segment (u.nfkc text)) := cutsJapaneseTokens whole _
  have bridged : Cuts _ (repairHiraganaBridgeFragments _) := cutsJoined segmented
  have particles : Cuts _ (splitHiraganaParticleRuns _) := cutsEach bridged fun _ => cutsParticles
  have prefixed : Cuts _ (repairHiraganaPrefixFragments _) := cutsJoined particles
  have digits : Cuts _ (splitAsciiDigitRuns _) := cutsEach prefixed fun _ => cutsDigits
  have katakana : Cuts _ (splitKatakanaCompounds _) := cutsEach digits fun _ => cutsKatakana
  exact ⟨_,rfl,cutsMerged t katakana⟩

theorem wordsFlatten (word text : List Char) :
    (wordsFrom word text).flatten = word ++ text.filter (!isWhitespace ·) := by
  induction text generalizing word with
  | nil =>
    unfold wordsFrom
    split_ifs with empty
    · rw [empty]
      rfl
    · simp
  | cons c text ih =>
    unfold wordsFrom
    split_ifs with space empty
    · simp [ih,space,empty]
    · simp [ih,space]
    · simp [ih,space]

theorem wordsKept (separators : Separators u) (text : List Char) :
    cleanToken u (splitWhitespace text).flatten = cleanToken u text := by
  rw [splitWhitespace,wordsFlatten,List.nil_append,cleanToken,cleanToken,List.filter_filter]
  refine List.filter_congr fun c _ => ?_
  cases space : isWhitespace c with
  | false => simp
  | true =>
    have apostrophe : c ≠ APOSTROPHE := fun same => (by rw [same] at space; revert space; decide)
    simp [isKeptChar,separators.whitespace c space,apostrophe]

theorem cutsWords (separators : Separators u) {split : Token → List Token}
    (each : ∀ word, Cuts (cleanToken u word) (split word)) (text : List Char) :
    Cuts (cleanToken u text) ((splitWhitespace text).flatMap split) := by
  rw [← wordsKept separators text]
  induction splitWhitespace text with
  | nil => exact cutsNil
  | cons word words ih =>
    rw [List.flatten_cons,cleanToken,List.filter_append]
    exact cutsAppend (each word) ih

theorem splitKorean (d : KoreanDict) (token : Token) :
    (ltokenizerSplitKoreanToken token d).1 ++ (ltokenizerSplitKoreanToken token d).2 = token := by
  unfold ltokenizerSplitKoreanToken
  dsimp only
  split_ifs
  · exact List.append_nil token
  · exact List.take_append_drop _ token

theorem cutsKorean (separators : Separators u) (d : KoreanDict) (text : List Char) :
    ∃ tokens, tokenizeKorean u (.ok d) text = .ok tokens ∧ Cuts (cleanToken u text) tokens := by
  refine ⟨_,rfl,cutsWords separators (fun word => ?_) text⟩
  have parts := splitKorean d word
  generalize ltokenizerSplitKoreanToken word d = lr at parts
  obtain ⟨l,r⟩ := lr
  dsimp only at parts ⊢
  rw [← parts,cleanToken,List.filter_append]
  refine cutsAppend (cutsFlush _) ?_
  split_ifs with some_
  · exact cutsFlush _
  · rw [not_not.mp some_]
    exact cutsNil

theorem cutsSegment (buf seg : Token) : Cuts (buf ++ seg) (splitSegmentFrom buf seg) := by
  induction seg generalizing buf with
  | nil =>
    rw [List.append_nil]
    exact cutsFlush buf
  | cons ch seg ih =>
    unfold splitSegmentFrom
    split_ifs
    · exact cutsAppend (cutsFlush buf) (cutsCons.mpr ⟨List.cons_ne_nil _ _,seg,rfl,ih []⟩)
    · have next := ih (buf ++ [ch])
      rwa [List.append_assoc] at next

theorem cutsSpaceLang (separators : Separators u) (text : List Char) :
    Cuts (cleanToken u text) (tokenizeSpaceLang u text) := by
  refine cutsWords separators (fun word => ?_) text
  dsimp only
  split_ifs with empty
  · rw [empty]
    exact cutsNil
  · exact cutsSegment [] (cleanToken u word)

end Conservation

section Encoding
variable {u : Unicode} {segment : List Char → Except String (List Token)} {dict : Except String KoreanDict}
  {t : JapaneseMergeTerms}

/- The text the words come from: Japanese is normalized first. -/
def alignedText (u : Unicode) (language : String) (text : List Char) : List Char :=
  if eqIgnoreAsciiCase language "japanese" then u.nfkc text else text

theorem wordListCuts (separators : Separators u) (whole : ∀ text surfaces, segment text = .ok surfaces → surfaces.flatten = text)
    {text : List Char} {language : String} {words : List Token}
    (ok : wordListOf u segment dict t text language = .ok words) :
    Cuts (cleanToken u (alignedText u language text)) words := by
  unfold wordListOf at ok
  unfold alignedText
  split_ifs at ok ⊢
  · obtain ⟨tokens,made,cuts⟩ := cutsJapanese whole t text
    rw [made] at ok
    exact Except.ok.inj ok ▸ cuts
  · unfold tokenizeKorean at ok
    obtain ⟨d,rfl,_⟩ := exceptBind.mp ok
    obtain ⟨tokens,made,cuts⟩ := cutsKorean separators d text
    rw [tokenizeKorean] at made
    rw [made] at ok
    exact Except.ok.inj ok ▸ cuts
  · exact Except.ok.inj ok ▸ cutsSpaceLang separators text

theorem markedBehind (first : Nat) (words : List Token) :
    (words.zipIdx (first+1)).flatMap (fun (w,i) => (if 0 < i then TIMESTAMP ++ TIMESTAMP else []) ++ w) ++
      (TIMESTAMP ++ TIMESTAMP) = TIMESTAMP ++ TIMESTAMP ++ words.flatMap (· ++ (TIMESTAMP ++ TIMESTAMP)) := by
  induction words generalizing first with
  | nil => simp
  | cons w words ih =>
    rw [List.zipIdx_cons,List.flatMap_cons,List.append_assoc,ih (first+1),List.flatMap_cons]
    simp

theorem inputMarked {words : List Token} (some_ : words ≠ []) :
    inputText words = words.flatMap (· ++ (TIMESTAMP ++ TIMESTAMP)) := by
  cases words with
  | nil => exact absurd rfl some_
  | cons w words =>
    have behind := markedBehind 0 words
    rw [inputText,List.zipIdx_cons,List.flatMap_cons,List.append_assoc,behind,List.flatMap_cons]
    simp

def markers (text : List Char) : Nat := occurrences '<' "timestamp>".toList text

theorem markersOther {body : List Char} (foreign : '<' ∉ body) (text : List Char) :
    markers ('<' :: '|' :: (body ++ text)) = markers text := by
  have other : occurrences '<' ('t' :: "imestamp>".toList) ('<' :: '|' :: (body ++ text)) =
      occurrences '<' ('t' :: "imestamp>".toList) ('|' :: (body ++ text)) := occurrencesOther (by decide) _
  exact other.trans (occurrencesForeign (List.not_mem_cons_of_ne_of_not_mem (by decide) foreign) text)

theorem markersAudio (text : List Char) : markers (AUDIO_TOKENS ++ text) = markers text := by
  have parts : AUDIO_TOKENS ++ text = '<' :: '|' :: ("audio_start|>".toList ++ ('<' :: '|' :: ("audio_pad|>".toList ++
      ('<' :: '|' :: ("audio_end|>".toList ++ text))))) := rfl
  rw [parts,markersOther (by decide),markersOther (by decide),markersOther (by decide)]

theorem markersTwo (text : List Char) : markers (TIMESTAMP ++ TIMESTAMP ++ text) = 2+markers text := by
  have parts : TIMESTAMP ++ TIMESTAMP ++ text = '<' :: ("timestamp>".toList ++ ('<' :: ("timestamp>".toList ++ text))) := rfl
  rw [parts,markers,occurrencesWord (by decide),occurrencesWord (by decide),markers,← Nat.add_assoc]

theorem markersMarked {words : List Token} (plain : ∀ word ∈ words, '<' ∉ word) :
    markers (words.flatMap (· ++ (TIMESTAMP ++ TIMESTAMP))) = 2*words.length := by
  induction words with
  | nil => rfl
  | cons w words ih =>
    obtain ⟨foreign,others⟩ := List.forall_mem_cons.mp plain
    rw [List.flatMap_cons,List.append_assoc,markers,occurrencesForeign foreign,← markers,markersTwo,ih others,List.length_cons]
    omega

theorem cutsPlain (separators : Separators u) {text : List Char} {words : List Token} (cuts : Cuts (cleanToken u text) words) :
    ∀ word ∈ words, '<' ∉ word := fun word inside letter => by
  have kept : '<' ∈ cleanToken u text := cuts.whole ▸ List.mem_flatten.mpr ⟨word,inside,letter⟩
  have holds := (List.mem_filter.mp kept).2
  rw [isKeptChar,separators.bracket] at holds
  exact absurd holds (by decide)

theorem encodedParts {text language : String} {words : List Token} {prompt : List Char} :
    encodeTimestamp u segment dict t text language = .ok (words,prompt) ↔ trim text ≠ "" ∧
      wordListOf u segment dict t text.toList (trim language) = .ok words ∧ words ≠ [] ∧ prompt = AUDIO_TOKENS ++ inputText words := by
  unfold encodeTimestamp
  dsimp only
  split_ifs with blank
  · exact iff_of_false (fun ok => by cases ok) (fun parts => parts.1 blank)
  · rw [exceptBind]
    constructor
    · rintro ⟨found,listed,ok⟩
      split_ifs at ok with empty
      cases ok
      exact ⟨blank,listed,empty,rfl⟩
    · rintro ⟨_,listed,some_,rfl⟩
      exact ⟨words,listed,if_neg some_⟩

theorem wordListSome (text : List Char) (language : String) : (∃ words, wordListOf u segment dict t text language = .ok words) ↔
      (eqIgnoreAsciiCase language "japanese" = false → eqIgnoreAsciiCase language "korean" = true → ∃ d, dict = .ok d) := by
  unfold wordListOf
  split_ifs with japanese korean
  · exact iff_of_true ⟨_,rfl⟩ fun other => absurd japanese (by rw [other]; exact Bool.false_ne_true)
  · constructor
    · rintro ⟨words,listed⟩ _ _
      obtain ⟨d,same,_⟩ := exceptBind.mp listed
      exact ⟨d,same⟩
    · intro loads
      obtain ⟨d,rfl⟩ := loads (eq_false_of_ne_true japanese) korean
      exact ⟨_,rfl⟩
  · exact iff_of_true ⟨_,rfl⟩ fun _ other => absurd other korean

end Encoding

/-- However a text is cut into words, they spell its kept characters in order and none is empty; the prompt has two
markers for each. A prompt is made of every text that keeps a character. -/
theorem alignmentConserves (u : Unicode) (separators : Separators u) (segment : List Char → Except String (List Token))
    (whole : ∀ text surfaces, segment text = .ok surfaces → surfaces.flatten = text) (t : JapaneseMergeTerms) :
    (∀ text, Cuts (cleanToken u text) (tokenizeSpaceLang u text)) ∧
    (∀ d text, ∃ tokens, tokenizeKorean u (.ok d) text = .ok tokens ∧ Cuts (cleanToken u text) tokens) ∧
    (∀ text, ∃ tokens, tokenizeJapaneseWithTerms u segment text t = .ok tokens ∧ Cuts (cleanToken u (u.nfkc text)) tokens) ∧
    ∀ dict text language,
      (∀ words prompt, encodeTimestamp u segment dict t text language = .ok (words,prompt) →
        Cuts (cleanToken u (alignedText u (trim language) text.toList)) words ∧ markers prompt = 2*words.length ∧
          prompt = AUDIO_TOKENS ++ words.flatMap (· ++ (TIMESTAMP ++ TIMESTAMP))) ∧
      ((∃ words prompt, encodeTimestamp u segment dict t text language = .ok (words,prompt)) ↔
        trim text ≠ "" ∧ cleanToken u (alignedText u (trim language) text.toList) ≠ [] ∧
          (eqIgnoreAsciiCase (trim language) "japanese" = false → eqIgnoreAsciiCase (trim language) "korean" = true →
            ∃ d, dict = .ok d)) := by
  refine ⟨cutsSpaceLang separators,cutsKorean separators,cutsJapanese whole t,fun dict text language => ⟨?_,?_⟩⟩
  · intro words prompt ok
    obtain ⟨_,listed,some_,rfl⟩ := encodedParts.mp ok
    have cuts := wordListCuts separators whole listed
    rw [inputMarked some_]
    exact ⟨cuts,(markersAudio _).trans (markersMarked (cutsPlain separators cuts)),rfl⟩
  · rw [← wordListSome text.toList (trim language)]
    constructor
    · rintro ⟨words,prompt,ok⟩
      obtain ⟨solid,listed,some_,_⟩ := encodedParts.mp ok
      have cuts := wordListCuts separators whole listed
      refine ⟨solid,fun empty => ?_,words,listed⟩
      obtain ⟨word,rest,rfl⟩ := List.exists_cons_of_ne_nil some_
      have none_ := cuts.whole.trans empty
      exact cuts.solid word List.mem_cons_self (List.append_eq_nil_iff.mp none_).1
    · rintro ⟨solid,kept,words,listed⟩
      refine ⟨words,_,encodedParts.mpr ⟨solid,listed,fun none_ => kept ?_,rfl⟩⟩
      rw [← (wordListCuts separators whole listed).whole,none_]
      rfl

section Example

def someUnicode : Unicode where
  generalCategory c :=
    if isWhitespace c then .spaceSeparator
    else if c = '<' then .mathSymbol
    else if isHiraganaChar c || isCjkChar c then .otherLetter
    else .otherPunctuation
  nfkc := id

def catSentence : String := "私は猫です。"

def someSegments (text : List Char) : Except String (List Token) :=
  .ok (if text = catSentence.toList then ["私","は","猫","です","。"].map String.toList else [text])

theorem someSeparators : Separators someUnicode :=
  ⟨fun c space => by simp [someUnicode,space,isLetterOrNumber],by decide⟩

theorem someWhole (text : List Char) (surfaces : List Token) (same : someSegments text = .ok surfaces) : surfaces.flatten = text := by
  cases same
  split_ifs with cat
  · exact cat ▸ by decide
  · exact List.append_nil text

theorem alignmentConservesCat :
    let words := ["私","は","猫","です"].map String.toList
    let prompt := AUDIO_TOKENS ++ inputText words
    encodeTimestamp someUnicode someSegments (.error "no dictionary") ⟨[],0⟩ catSentence "Japanese" = .ok (words,prompt) ∧
    Cuts (cleanToken someUnicode catSentence.toList) words ∧ markers prompt = 2*words.length := by
  have encoded : encodeTimestamp someUnicode someSegments (.error "no dictionary") ⟨[],0⟩ catSentence "Japanese" =
      .ok (["私","は","猫","です"].map String.toList,AUDIO_TOKENS ++ inputText (["私","は","猫","です"].map String.toList)) := by
    decide +kernel
  obtain ⟨cuts,counted,_⟩ := ((alignmentConserves someUnicode someSeparators someSegments someWhole ⟨[],0⟩).2.2.2
    (.error "no dictionary") catSentence "Japanese").1 _ _ encoded
  exact ⟨encoded,cuts,counted⟩

end Example

end Qwen3Asr.AlignTokens
