import CommonTools.FeDaemon.Wire
import CommonTools.Library.Scanning

namespace CommonTools.Slurm
open Numerals Scanning Texts FeDaemon
open List hiding tail

-- A line in pieces of the buffer's size; none at the end of the file. strlen stops at a NUL.
def fileReadLine : Nat → Option Bytes → Bytes → Option Bytes × Bytes
  | 0,result,file => (result,file)
  | fuel + 1,result,file =>
    match fgets 4096 file with
    | none => (result,file)
    | some (buf,file) =>
      let buf := buf.takeWhile (· ≠ 0)
      if buf.getLast? = some newline then (some (result.getD [] ++ buf.dropLast),file)
      else fileReadLine fuel (some (result.getD [] ++ buf)) file

def fileLines : Nat → Bytes → List Bytes
  | 0,_ => []
  | fuel + 1,file =>
    match fileReadLine (file.length + 1) none file with
    | (none,_) => []
    | (some line,file) => line :: fileLines fuel file

def hostNeedle : Bytes := ascii "NodeHostName"

def nameNeedle : Bytes := ascii "NodeName="

-- strstr, and sscanf with NodeHostName=%m[^ ] from there.
def hostName (line : Bytes) : Option Bytes :=
  match search hostNeedle line with
  | none => none
  | some (_,rest) =>
    let value := rest.tail.takeWhile (· ≠ 32)
    if rest.head? = some 61 ∧ value ≠ [] then some value else none

-- The name after a line: sscanf with NodeName=%m[^ ], which leaves NULL if nothing follows.
def nodeName (current : Option Bytes) (line : Bytes) : Option Bytes :=
  if nameNeedle.isPrefixOf line then
    let name := (line.drop nameNeedle.length).takeWhile (· ≠ 32)
    if name = [] then none else some name
  else current

-- Equal, or the shorter one with something behind it that is no digit.
def hostMatches (hostname current : Bytes) : Bool :=
  if hostname.length = current.length then hostname == current
  else if hostname.length < current.length then hostname.isPrefixOf current && !(current.drop hostname.length).head?.any isDigit
  else current.isPrefixOf hostname && !(hostname.drop current.length).head?.any isDigit

def scanNodes (hostname : Bytes) : Option Bytes → List Bytes → Option Bytes
  | _,[] => none
  | current,line :: rest =>
    match hostName line with
    | some host =>
      match current with
      | none => none
      | some name => if hostMatches hostname host then some name else scanNodes hostname none rest
    | none => scanNodes hostname (nodeName current line) rest

def getNodeName (hostname scontrol : Bytes) : Option Bytes := scanNodes hostname none (fileLines (scontrol.length + 1) scontrol)

def Plain (text : Bytes) : Prop := newline ∉ text ∧ 0 ∉ text

def Ended (tail : Bytes) : Prop := ∀ b ∈ tail.head?, b = 32

structure NodeText where
  text : Bytes
  plain : Plain text
  other : hostName text = none ∧ ¬ nameNeedle <+: text

structure NodeRecord where
  name : Bytes
  nameTail : Bytes
  between : List NodeText
  front : Bytes
  host : Bytes
  hostTail : Bytes
  after : List NodeText
  named : name ≠ [] ∧ 32 ∉ name ∧ Ended nameTail
  hosted : host ≠ [] ∧ 32 ∉ host ∧ Ended hostTail
  namePlain : Plain (nameNeedle ++ (name ++ nameTail))
  hostPlain : Plain (front ++ (hostNeedle ++ 61 :: (host ++ hostTail)))
  unhosted : hostName (nameNeedle ++ (name ++ nameTail)) = none
  first : ∀ k < front.length, ¬ hostNeedle <+: (front ++ (hostNeedle ++ 61 :: (host ++ hostTail))).drop k

def NodeRecord.lines (record : NodeRecord) : List Bytes :=
  (nameNeedle ++ (record.name ++ record.nameTail)) :: (record.between.map NodeText.text ++
    (record.front ++ (hostNeedle ++ 61 :: (record.host ++ record.hostTail))) :: record.after.map NodeText.text)

structure NodeListing where
  records : List NodeRecord
  distinct : (records.map NodeRecord.host).Nodup

def NodeListing.text (listing : NodeListing) : Bytes := (listing.records.flatMap NodeRecord.lines).flatMap (· ++ [newline])

def NodeListing.Finds (listing : NodeListing) : Prop :=
  ∀ hostname, ∀ record ∈ listing.records, record.host = hostname → getNodeName hostname listing.text = some record.name

theorem fgets_part (plain : newline ∉ text) (long : size - 1 ≤ text.length) (some' : 1 < size) :
    fgets size (text ++ rest) = some (text.take (size - 1),text.drop (size - 1) ++ rest) := by
  have head : (text ++ rest).take (size - 1) = text.take (size - 1) := take_append_of_le_length long
  have taken := length_take_of_le long
  have free : newline ∉ text.take (size - 1) := fun inside => plain (mem_of_mem_take inside)
  have filled : text ++ rest ≠ [] := by
    intro empty
    rw [(append_eq_nil_iff.mp empty).1,length_nil] at long
    omega
  rw [fgets,if_neg filled]
  dsimp only
  rw [head,if_neg free,taken,drop_append_of_le_length long]

theorem readLine_plain (plain : Plain text) (enough : text.length < fuel) :
    fileReadLine fuel result (text ++ newline :: rest) = (some (result.getD [] ++ text),rest) := by
  induction fuel generalizing text result with
  | zero => omega
  | succ fuel ih =>
    rw [fileReadLine]
    by_cases short : text.length + 1 < 4096
    · have whole : (text ++ [newline]).takeWhile (· ≠ 0) = text ++ [newline] := takeWhile_free (by simp [plain.2]; decide)
      rw [fgets_line plain.1 short]
      dsimp only
      rw [whole,if_pos (by simp),dropLast_concat]
    · have rested : Plain (text.drop 4095) :=
        ⟨fun inside => plain.1 (mem_of_mem_drop inside),fun inside => plain.2 (mem_of_mem_drop inside)⟩
      have whole : (text.take 4095).takeWhile (· ≠ 0) = text.take 4095 := takeWhile_free fun inside => plain.2 (mem_of_mem_take inside)
      have unended : (text.take 4095).getLast? ≠ some newline := fun last =>
        plain.1 (mem_of_mem_take (mem_of_getLast? last))
      rw [fgets_part plain.1 (by omega) (by decide)]
      dsimp only
      rw [whole,if_neg unended,ih rested (by rw [length_drop]; omega)]
      simp [append_assoc,take_append_drop]

theorem fileLines_written (plain : ∀ line ∈ lines, Plain line) (enough : lines.length < fuel) :
    fileLines fuel (lines.flatMap (· ++ [newline])) = lines := by
  induction lines generalizing fuel with
  | nil =>
    cases fuel with
    | zero | succ fuel => rfl
  | cons line lines ih =>
    cases fuel with
    | zero => omega
    | succ fuel =>
      have parts : (line :: lines).flatMap (· ++ [newline]) = line ++ newline :: lines.flatMap (· ++ [newline]) := by simp
      rw [fileLines,parts,readLine_plain (plain line mem_cons_self) (by rw [length_append]; omega)]
      dsimp only
      rw [ih (fun other inside => plain other (mem_cons_of_mem _ inside)) (Nat.lt_of_succ_lt_succ enough)]
      rfl

theorem written_length (lines : List Bytes) : lines.length ≤ (lines.flatMap (· ++ [newline])).length := by
  induction lines with
  | nil => exact Nat.zero_le _
  | cons line lines ih =>
    simp only [flatMap_cons,length_append,length_cons,length_nil]
    omega

section Scanning
variable {hostname : Bytes} {rest : List Bytes}

theorem value_ended (free : 32 ∉ value) (ended : Ended tail) : (value ++ tail).takeWhile (· ≠ 32) = value := by
  cases tail with
  | nil => rw [append_nil]; exact takeWhile_free free
  | cons b tail =>
    rw [ended b rfl]
    exact takeWhile_sep free

theorem scan_texts (texts : List NodeText) (current : Option Bytes) :
    scanNodes hostname current (texts.map NodeText.text ++ rest) = scanNodes hostname current rest := by
  induction texts with
  | nil => rfl
  | cons line texts ih =>
    have unnamed : nodeName current line.text = current := if_neg fun found => line.other.2 (List.isPrefixOf_iff_prefix.mp found)
    rw [map_cons,cons_append,scanNodes,line.other.1]
    rw [unnamed]
    exact ih

theorem nodeName_line (record : NodeRecord) (current : Option Bytes) :
    nodeName current (nameNeedle ++ (record.name ++ record.nameTail)) = some record.name := by
  obtain ⟨some',free,ended⟩ := record.named
  have found : nameNeedle.isPrefixOf (nameNeedle ++ (record.name ++ record.nameTail)) = true :=
    List.isPrefixOf_iff_prefix.mpr (prefix_append _ _)
  rw [nodeName,if_pos found]
  rw [drop_left,value_ended free ended,if_neg some']

theorem hostName_line (record : NodeRecord) :
    hostName (record.front ++ (hostNeedle ++ 61 :: (record.host ++ record.hostTail))) = some record.host := by
  obtain ⟨some',free,ended⟩ := record.hosted
  rw [hostName,search_first record.first]
  dsimp only
  rw [tail_cons,value_ended free ended,if_pos ⟨rfl,some'⟩]

theorem scan_record (record : NodeRecord) (current : Option Bytes) : scanNodes hostname current (record.lines ++ rest) =
    if hostMatches hostname record.host then some record.name else scanNodes hostname none rest := by
  rw [NodeRecord.lines,cons_append,scanNodes,record.unhosted]
  dsimp only
  rw [nodeName_line,append_assoc,scan_texts,cons_append,scanNodes,hostName_line]
  rw [scan_texts]

theorem scan_nodes (records : List NodeRecord) (current : Option Bytes) : scanNodes hostname current (records.flatMap NodeRecord.lines) =
      (records.find? (hostMatches hostname ·.host)).map NodeRecord.name := by
  induction records generalizing current with
  | nil => rfl
  | cons record records ih =>
    rw [flatMap_cons,scan_record,List.find?_cons,ih none]
    cases hostMatches hostname record.host <;> rfl

theorem record_plain (record : NodeRecord) (inside : line ∈ record.lines) : Plain line := by
  have others : ∀ texts : List NodeText, line ∈ texts.map NodeText.text → Plain line := by
    intro texts listed
    obtain ⟨other,_,rfl⟩ := mem_map.mp listed
    exact other.plain
  rw [NodeRecord.lines,mem_cons,mem_append,mem_cons] at inside
  rcases inside with rfl | between | rfl | after
  · exact record.namePlain
  · exact others _ between
  · exact record.hostPlain
  · exact others _ after

theorem getNodeName_first (listing : NodeListing) (hostname : Bytes) : getNodeName hostname listing.text =
    (listing.records.find? (hostMatches hostname ·.host)).map NodeRecord.name := by
  have lines : fileLines (listing.text.length + 1) listing.text = listing.records.flatMap NodeRecord.lines := by
    refine fileLines_written (fun line inside => ?_) ?_
    · obtain ⟨record,_,listed⟩ := mem_flatMap.mp inside
      exact record_plain record listed
    · exact Nat.lt_succ_of_le (written_length _)
  rw [getNodeName,lines,scan_nodes]

end Scanning

-- For each record, the first of the listing that matches its host has its name.
theorem node_name_exact (listing : NodeListing) : listing.Finds ↔ ∀ record ∈ listing.records, ∀ first,
    listing.records.find? (hostMatches record.host ·.host) = some first → first.name = record.name := by
  constructor
  · intro finds record listed first found
    have name := finds record.host record listed rfl
    rw [getNodeName_first,found] at name
    exact Option.some.inj name
  · rintro same hostname record listed rfl
    rw [getNodeName_first]
    cases found : listing.records.find? (hostMatches record.host ·.host) with
    | none => exact absurd (by simp [hostMatches]) (List.find?_eq_none.mp found record listed)
    | some first => exact congrArg some (same record listed first found)

def nodeRecord (name : Bytes) (named : name ≠ [] ∧ 32 ∉ name) (plain : Plain (nameNeedle ++ (name ++ [])))
    (hostPlain : Plain ([] ++ (hostNeedle ++ 61 :: (name ++ [])))) (unhosted : hostName (nameNeedle ++ (name ++ [])) = none) : NodeRecord :=
  ⟨name,[],[],[],name,[],[],⟨named.1,named.2,nofun⟩,⟨named.1,named.2,nofun⟩,plain,hostPlain,unhosted,nofun⟩

def twoNodes : NodeListing :=
  ⟨[nodeRecord (ascii "gpu") (by decide) (by unfold Plain; decide) (by unfold Plain; decide) (by decide),
    nodeRecord (ascii "gpu-a") (by decide) (by unfold Plain; decide) (by unfold Plain; decide) (by decide)],by decide⟩

theorem shorter_name_found : getNodeName (ascii "gpu-a") twoNodes.text = some (ascii "gpu") ∧ ¬ twoNodes.Finds := by
  have found : getNodeName (ascii "gpu-a") twoNodes.text = some (ascii "gpu") := by
    rw [getNodeName_first]
    decide
  refine ⟨found,fun finds => ?_⟩
  have right := finds (ascii "gpu-a") _ (mem_cons_of_mem _ mem_cons_self) rfl
  rw [found] at right
  exact absurd right (by decide)

end CommonTools.Slurm
