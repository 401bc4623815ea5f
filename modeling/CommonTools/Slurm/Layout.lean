import CommonTools.Library.Scanning
import CommonTools.Library.Tilings
import CommonTools.Placement.Slurm
import CommonTools.Slurm.JobIds

namespace CommonTools.Slurm
open Numerals Texts Scanning OrderedMaps Tilings FeDaemon Placement Placement.Slurm List

def layoutHint (jobId : Bytes) : Bytes := ascii "Try running \x60sattach --layout " ++ jobId ++ ascii "\x60"

def ctiStoi (name text : Bytes) : Except Bytes Int :=
  match stoi text with
  | .ok (value,_) => .ok value
  | .error _ => .error (ascii "Failed to parse " ++ name ++ ascii " (was '" ++ text ++ ascii "')")

def stdStoul (text : Bytes) : Except Bytes Nat := (stoul text).mapError ascii

-- hostname.substr(1, hostname.length() - 3), which takes parentheses and comma away.
def hostPart (hostname : Bytes) : Except Bytes Bytes :=
  if hostname = [] then .error (ascii "basic_string::substr: __pos (which is 1) > this->size() (which is 0)")
  else if hostname.length < 3 then .ok (hostname.drop 1)
  else .ok ((hostname.drop 1).take (hostname.length - 3))

-- The running total is an int: it is added where a node starts with rank 0 again.
def layoutLine (pe_offset : Nat) (running_rank_total : Int) (line : Bytes) : Except Bytes NodeLayout := do
  let fields := splitString 6 (removeLeadingWhitespace line) 32
  let pe_0 ← stdStoul (fields.getD 5 [])
  let pe_0 := if 0 < running_rank_total ∧ pe_0 = 0 then pe_0 + running_rank_total.toNat else pe_0
  let num_pes ← stdStoul (fields.getD 3 [])
  let hostname ← hostPart (fields.getD 2 [])
  return ⟨cstr hostname,num_pes,pe_0 + pe_offset⟩

def layoutLines (jobId : Bytes) (num_nodes : Int) (pe_offset : Nat) : Nat → Int → List Bytes → Except Bytes (List NodeLayout)
  | _,_,[] => .ok []
  | i,running_rank_total,line :: rest =>
    if num_nodes ≤ i then
      .error (ascii "Target job has " ++ decimalInt num_nodes ++ ascii " nodes, but received extra layout information from SATTACH. " ++
        layoutHint jobId)
    else do
      let node ← layoutLine pe_offset running_rank_total line
      let nodes ← layoutLines jobId num_nodes pe_offset (i + 1) (Int.bmod (running_rank_total + node.numPEs) (2 ^ 32)) rest
      return node :: nodes

def getStepLayout (jobId : Bytes) (sattach : Answer) (pe_offset : Nat) : Except Bytes StepLayout :=
  match sattach.lines with
  | [] => .error (ascii "End of layout output from SATTACH (expected header). " ++ layoutHint jobId)
  | header :: rest =>
    if header ≠ ascii "Job step layout:" then
      if (ascii "sattach: error:").isPrefixOf header then .error header
      else .error (ascii "Unexpected layout output from SATTACH: '" ++ header ++ ascii "'. " ++ layoutHint jobId)
    else
      match rest with
      | [] => .error (ascii "End of layout output from SATTACH (expected summary). " ++ layoutHint jobId)
      | summary :: rest => do
        let fields := splitString 3 (removeLeadingWhitespace summary) 32
        let numPEs ← stdStoul (fields.getD 0 [])
        let num_nodes ← ctiStoi (ascii "number of nodes from sattach") (fields.getD 2 [])
        if num_nodes < 0 then .error (ascii "vector::reserve")
        -- The separator line is skipped.
        let nodes ← layoutLines jobId num_nodes pe_offset 0 0 rest.tail
        if 0 < sattach.status then .error (ascii "SATTACH failed. " ++ layoutHint jobId)
        else return ⟨numPEs,nodes⟩

def HetJobId.sattachId (id : HetJobId) : Bytes :=
  match id.het_offset with
  | some offset =>
    if id.in_salloc then decimal id.job_id.toNat ++ ascii "." ++ decimal id.step_id.toNat ++ ascii "+" ++ decimal offset.toNat
    else decimal (id.job_id + offset).toNat ++ ascii "." ++ decimal id.step_id.toNat
  | none => decimal id.job_id.toNat ++ ascii "." ++ decimal id.step_id.toNat

def HetJobId.srunId (id : HetJobId) : CStr :=
  cstr (match id.het_offset with
    | some offset => decimal id.job_id.toNat ++ ascii "+" ++ decimal offset.toNat ++ ascii "." ++ decimal id.step_id.toNat
    | none => decimal id.job_id.toNat ++ ascii "." ++ decimal id.step_id.toNat)

structure Fetching where
  next_pe_start : Nat
  result : OrderedMap CStr StepLayout
  failed_layouts : Nat
  exceptionMessage : Bytes

def Fetching.take (state : Fetching) (query : HetJobId × Answer) : Fetching :=
  match getStepLayout query.1.sattachId query.2 state.next_pe_start with
  | .ok layout => {state with next_pe_start := state.next_pe_start + layout.numPEs
                              result := state.result.insert query.1.srunId layout}
  | .error message => {state with failed_layouts := state.failed_layouts + 1,exceptionMessage := message}

def fetchStepLayouts (queries : List (HetJobId × Answer)) : Except Bytes (OrderedMap CStr StepLayout) :=
  let state := queries.foldl Fetching.take ⟨0,.empty,0,[]⟩
  if state.failed_layouts = 0 then .ok state.result
  else if state.failed_layouts = queries.length then .error state.exceptionMessage
  else .error (decimal state.failed_layouts ++ ascii " of " ++ decimal queries.length ++
    ascii " MPMD job steps failed to launch. Ensure your MPMD job can be launched successfully outside of this tool (" ++
    state.exceptionMessage ++ ascii ")")

structure LayoutNode where
  nodeNum : Nat
  host : CStr
  tasks : Nat
  others : Bytes
  word : 32 ∉ host.1
  positive : 0 < tasks
  separate : ∀ b ∈ others.head?, isDigit b = false

abbrev Program := {nodes : List LayoutNode // nodes ≠ []}

def taskCount (nodes : List LayoutNode) : Nat := (nodes.map LayoutNode.tasks).sum

def ranked (first : Nat) : List LayoutNode → List (Nat × LayoutNode)
  | [] => []
  | node :: rest => (first,node) :: ranked (first + node.tasks) rest

def nodeLine (entry : Nat × LayoutNode) : Bytes :=
  ascii "  " ++ (ascii "Node" ++ 32 :: (decimal entry.2.nodeNum ++ 32 :: (40 :: entry.2.host.1 ++ [41,44] ++ 32 ::
    (decimal entry.2.tasks ++ 32 :: (ascii "task(s):" ++ 32 :: (decimal entry.1 ++ entry.2.others))))))

structure Output where
  id : HetJobId
  programs : List Program
  hostlist : Bytes

def Output.nodes (output : Output) : List LayoutNode := output.programs.flatMap Subtype.val

def Output.entries (output : Output) : List (Nat × LayoutNode) := output.programs.flatMap fun program => ranked 0 program.1

def Output.summary (output : Output) : Bytes :=
  ascii "  " ++ (decimal (taskCount output.nodes) ++ 32 :: (ascii "tasks," ++ 32 :: (decimal output.nodes.length ++
    (ascii " nodes (" ++ output.hostlist ++ [41]))))

def Output.answer (output : Output) : Answer :=
  ⟨ascii "Job step layout:" :: output.summary :: [] :: output.entries.map nodeLine,0⟩

-- The counts are numbers of size_t.
structure LayoutJob where
  outputs : List Output
  distinct : (outputs.map fun output => output.id.srunId).Nodup
  sized : taskCount (outputs.flatMap Output.nodes) < 2 ^ 64

def LayoutJob.nodes (job : LayoutJob) : List LayoutNode := job.outputs.flatMap Output.nodes

def LayoutJob.queries (job : LayoutJob) : List (HetJobId × Answer) := job.outputs.map fun output => (output.id,output.answer)

section Reading
variable {n : Nat} {others : Bytes}

theorem trim_number (front : Bytes) (n : Nat) (others : Bytes) :
    (front ++ (decimal n ++ others)).rdropWhile isBlank = front ++ (decimal n ++ others.rdropWhile isBlank) := by
  obtain ⟨digits,last,parts⟩ := (eq_nil_or_concat' (decimal n)).resolve_left (decimal_ne n)
  have digit : isDigit last = true := decimal_digits (n := n) (by simp [parts])
  have trimmed := rdropWhile_front (digit_not_blank digit) (front ++ digits) others
  simpa [parts] using trimmed

theorem trim_front (blank : Blank indent) (first : ∀ b ∈ core.head?, isBlank b = false) :
    removeLeadingWhitespace (indent ++ core) = core.rdropWhile isBlank := by
  rw [removeLeadingWhitespace,dropWhile_blank blank]
  cases core with
  | nil => rfl
  | cons b core => rw [dropWhile_cons_of_neg (by simp [first b rfl])]

theorem spaces : Blank (ascii "  ") := by
  unfold Blank
  decide +kernel

theorem head_kept {kept : Bytes} (front : kept <+: text) (separate : ∀ b ∈ text.head?, isDigit b = false) :
    ∀ b ∈ kept.head?, isDigit b = false := by
  intro b first
  obtain ⟨rest,rfl⟩ := front
  refine separate b ?_
  cases kept with
  | nil => cases first
  | cons c kept => exact first

theorem number_field (n : Nat) (separate : ∀ b ∈ others.head?, isDigit b = false) :
    ∃ more : Bytes, (∀ b ∈ more.head?, isDigit b = false) ∧ splitString 1 (decimal n ++ others) 32 = [decimal n ++ more] := by
  have free : 32 ∉ decimal n := decimal_free (by decide)
  by_cases blank : 32 ∈ others
  · obtain ⟨left,right,rfl,fresh⟩ := eq_append_cons_of_mem blank
    obtain ⟨more,head,fields⟩ := splitString_more (by simp [free,fresh] : 32 ∉ decimal n ++ left)
    rw [← append_assoc,fields]
    refine ⟨left ++ more,?_,by simp⟩
    intro b first
    cases left with
    | nil =>
      rw [nil_append] at first
      simp only [mem_cons,not_mem_nil,or_false] at head
      rcases head with none' | delim
      · rw [none'] at first
        cases first
      · rw [delim] at first
        cases first
        decide
    | cons c left => exact separate b (by simpa using first)
  · exact ⟨others,separate,splitString_last (by simp [free,blank])⟩

theorem hostPart_host : hostPart (40 :: host ++ [41,44]) = .ok host := by
  have length : (40 :: host ++ [41,44]).length = host.length + 3 := by simp
  unfold hostPart
  simp

theorem cstr_text : cstr text.1 = text := by
  refine Subtype.ext (takeWhile_eq_self_iff.mpr fun b inside => ?_)
  have other : b ≠ 0 := fun zero => text.2 (zero ▸ inside)
  simpa using other

def placeNode (pe_offset : Nat) (running_rank_total : Int) (entry : Nat × LayoutNode) : NodeLayout :=
  ⟨entry.2.host,entry.2.tasks,
    (if 0 < running_rank_total ∧ entry.1 = 0 then entry.1 + running_rank_total.toNat else entry.1) + pe_offset⟩

theorem layoutLine_node (pe_offset : Nat) (running_rank_total : Int) (entry : Nat × LayoutNode) (first : entry.1 < 2 ^ 64)
    (tasks : entry.2.tasks < 2 ^ 64) :
    layoutLine pe_offset running_rank_total (nodeLine entry) = .ok (placeNode pe_offset running_rank_total entry) := by
  obtain ⟨first',node⟩ := entry
  have separate := head_kept (List.rdropWhile_prefix isBlank node.others) node.separate
  obtain ⟨more,ends,last⟩ := number_field first' separate
  have blank : isDigit 32 = false := by decide
  have host : 32 ∉ 40 :: node.host.1 ++ [41,44] := by simp [node.word]
  have trimmed : removeLeadingWhitespace (nodeLine (first',node)) =
      ascii "Node" ++ 32 :: (decimal node.nodeNum ++ 32 :: (40 :: node.host.1 ++ [41,44] ++ 32 ::
        (decimal node.tasks ++ 32 :: (ascii "task(s):" ++ 32 :: (decimal first' ++ node.others.rdropWhile isBlank))))) := by
    rw [nodeLine,trim_front spaces (by simp [ascii,isBlank])]
    have number := trim_number (ascii "Node" ++ 32 :: (decimal node.nodeNum ++ 32 :: (40 :: node.host.1 ++ [41,44] ++ 32 ::
      (decimal node.tasks ++ 32 :: (ascii "task(s):" ++ [32]))))) first' node.others
    simpa using number
  have fields : splitString 6 (removeLeadingWhitespace (nodeLine (first',node))) 32 =
      [ascii "Node",decimal node.nodeNum,40 :: node.host.1 ++ [41,44],decimal node.tasks,ascii "task(s):",decimal first' ++ more] := by
    rw [trimmed,splitString_sep (by decide),splitString_sep (decimal_free blank),splitString_sep host,
      splitString_sep (decimal_free blank),splitString_sep (by decide),last]
  have number : stdStoul (decimal first' ++ more) = .ok first' := by
    have read := @stoul_decimal first' [] more first (by simp) ends
    rw [nil_append] at read
    rw [stdStoul,read]
    rfl
  have count : stdStoul (decimal node.tasks) = .ok node.tasks := by
    rw [stdStoul,stoul_number tasks]
    rfl
  unfold layoutLine
  simp only [fields,getD_cons_succ,getD_cons_zero,number,count,hostPart_host,bind,Except.bind,pure,Except.pure,cstr_text,placeNode]

def placeNodes (pe_offset : Nat) : Int → List (Nat × LayoutNode) → List NodeLayout
  | _,[] => []
  | running_rank_total,entry :: rest =>
    placeNode pe_offset running_rank_total entry :: placeNodes pe_offset (Int.bmod (running_rank_total + entry.2.tasks) (2 ^ 32)) rest

theorem layoutLines_nodes (jobId : Bytes) {num_nodes : Int} (pe_offset : Nat) {entries : List (Nat × LayoutNode)}
    (sized : ∀ entry ∈ entries, entry.1 < 2 ^ 64 ∧ entry.2.tasks < 2 ^ 64) {i : Nat} (enough : i + entries.length ≤ num_nodes)
    (running_rank_total : Int) : layoutLines jobId num_nodes pe_offset i running_rank_total (entries.map nodeLine) =
      .ok (placeNodes pe_offset running_rank_total entries) := by
  induction entries generalizing i running_rank_total with
  | nil => rfl
  | cons entry rest ih =>
    obtain ⟨own,others⟩ := forall_mem_cons.mp sized
    rw [length_cons] at enough
    push_cast at enough
    have line := layoutLine_node pe_offset running_rank_total entry own.1 own.2
    have later := @ih others (i + 1) (by push_cast; omega) (Int.bmod (running_rank_total + entry.2.tasks) (2 ^ 32))
    rw [map_cons,layoutLines,if_neg (by omega),line]
    simp only [bind,Except.bind,pure,Except.pure,placeNodes]
    rw [show (placeNode pe_offset running_rank_total entry).numPEs = entry.2.tasks from rfl,later]

theorem ranked_sized (listed : entry ∈ ranked first nodes) : entry.1 + entry.2.tasks ≤ first + taskCount nodes := by
  induction nodes generalizing first with
  | nil => cases listed
  | cons node rest ih =>
    rw [taskCount,map_cons,sum_cons]
    rcases mem_cons.mp listed with rfl | later
    · dsimp only
      omega
    · have bound := ih later
      rw [taskCount] at bound
      omega

theorem taskCount_append : taskCount (left ++ right) = taskCount left + taskCount right := by
  simp [taskCount]

theorem taskCount_mem {programs : List Program} (listed : program ∈ programs) :
    taskCount program.1 ≤ taskCount (programs.flatMap Subtype.val) := by
  obtain ⟨before,after,rfl⟩ := append_of_mem listed
  rw [flatMap_append,flatMap_cons,taskCount_append,taskCount_append]
  omega

variable {output : Output}

theorem entries_sized (sized : taskCount output.nodes < 2 ^ 64) : ∀ entry ∈ output.entries, entry.1 < 2 ^ 64 ∧ entry.2.tasks < 2 ^ 64 := by
  intro entry listed
  obtain ⟨program,inside,own⟩ := mem_flatMap.mp listed
  have bound := ranked_sized own
  have whole : taskCount program.1 ≤ taskCount output.nodes := taskCount_mem inside
  constructor <;> omega

theorem ranked_length : (ranked first nodes).length = nodes.length := by
  induction nodes generalizing first with
  | nil => rfl
  | cons node rest ih => rw [ranked,length_cons,length_cons,ih]

theorem entries_length : output.entries.length = output.nodes.length := by
  unfold Output.entries Output.nodes
  simp [ranked_length]

theorem summary_fields (output : Output) : ∃ more : Bytes, (∀ b ∈ more.head?, isDigit b = false) ∧
    splitString 3 (removeLeadingWhitespace output.summary) 32 =
      [decimal (taskCount output.nodes),ascii "tasks,",decimal output.nodes.length ++ more] := by
  have blank : isDigit 32 = false := by decide
  obtain ⟨more,ends,last⟩ := @number_field (ascii " nodes (" ++ output.hostlist ++ [41]) output.nodes.length
    (by simp [ascii,blank])
  have first : ∀ b ∈ (decimal (taskCount output.nodes) ++ 32 :: (ascii "tasks," ++ 32 :: (decimal output.nodes.length ++
      (ascii " nodes (" ++ output.hostlist ++ [41])))).head?, isBlank b = false := by
    intro b head
    obtain ⟨digit,rest,digits⟩ := exists_cons_of_ne_nil (decimal_ne (taskCount output.nodes))
    rw [digits] at head
    cases head
    exact digit_not_blank (decimal_digits (n := taskCount output.nodes) (digits ▸ mem_cons_self))
  have trimmed : removeLeadingWhitespace output.summary = decimal (taskCount output.nodes) ++ 32 :: (ascii "tasks," ++ 32 ::
      (decimal output.nodes.length ++ (ascii " nodes (" ++ output.hostlist ++ [41]))) := by
    rw [Output.summary,trim_front spaces first]
    have kept := @rdropWhile_kept 41 (by decide) (decimal (taskCount output.nodes) ++ 32 :: (ascii "tasks," ++ 32 ::
      (decimal output.nodes.length ++ (ascii " nodes (" ++ output.hostlist))))
    simpa using kept
  refine ⟨more,ends,?_⟩
  rw [trimmed,splitString_sep (decimal_free blank),splitString_sep (by decide),last]

def Output.layout (output : Output) (pe_offset : Nat) : StepLayout := ⟨taskCount output.nodes,placeNodes pe_offset 0 output.entries⟩

theorem getStepLayout_output (sized : taskCount output.nodes < 2 ^ 64) (jobId : Bytes) (pe_offset : Nat) :
    (output.nodes.length < 2 ^ 31 → getStepLayout jobId output.answer pe_offset = .ok (output.layout pe_offset)) ∧
    (¬ output.nodes.length < 2 ^ 31 → ∃ message, getStepLayout jobId output.answer pe_offset = .error message) := by
  obtain ⟨more,ends,fields⟩ := summary_fields output
  have total : stdStoul (decimal (taskCount output.nodes)) = .ok (taskCount output.nodes) := by
    rw [stdStoul,stoul_number sized]
    rfl
  have count := stoi_rest output.nodes.length ends
  unfold getStepLayout Output.answer
  simp only [ne_eq,not_true_eq_false,if_false,fields,getD_cons_succ,getD_cons_zero,total,tail_cons,ctiStoi,count]
  constructor
  · intro small
    have lines := @layoutLines_nodes jobId output.nodes.length pe_offset output.entries (entries_sized sized) 0
      (by rw [entries_length]; simp) 0
    simp only [small,if_true,bind,Except.bind,pure,Except.pure]
    simp only [lines]
    rfl
  · intro large
    simp only [large,if_false,bind,Except.bind]
    exact ⟨_,rfl⟩

end Reading

theorem placeNodes_shift :
    placeNodes pe_offset running_rank_total entries = (placeNodes 0 running_rank_total entries).map (NodeLayout.shift pe_offset) := by
  induction entries generalizing running_rank_total with
  | nil => rfl
  | cons entry rest ih => rw [placeNodes,placeNodes,map_cons,ih]; rfl

theorem layout_shift {output : Output} : output.layout pe_offset = (output.layout 0).shift pe_offset := by
  rw [Output.layout,placeNodes_shift]
  rfl

def Output.parsed (output : Output) : CStr × StepLayout := (output.id.srunId,output.layout 0)

theorem take_outputs {outputs : List Output} (sized : ∀ output ∈ outputs, taskCount output.nodes < 2 ^ 64)
    (few : ∀ output ∈ outputs, output.nodes.length < 2 ^ 31) {state : Fetching} :
    (outputs.map fun output => (output.id,output.answer)).foldl Fetching.take state =
      {state with next_pe_start := state.next_pe_start + (outputs.map fun output => taskCount output.nodes).sum
                  result := fetchStepLayout state.next_pe_start state.result (outputs.map Output.parsed)} := by
  induction outputs generalizing state with
  | nil => rfl
  | cons output rest ih =>
    obtain ⟨own,others⟩ := forall_mem_cons.mp sized
    obtain ⟨small,smaller⟩ := forall_mem_cons.mp few
    have read := (getStepLayout_output own output.id.sattachId state.next_pe_start).1 small
    rw [map_cons,foldl_cons,ih others smaller]
    simp only [Fetching.take,read,map_cons,sum_cons,Output.parsed,fetchStepLayout,← layout_shift]
    simp [Output.layout,Nat.add_assoc]

theorem failed_grows (queries : List (HetJobId × Answer)) (state : Fetching) :
    state.failed_layouts ≤ (queries.foldl Fetching.take state).failed_layouts := by
  induction queries generalizing state with
  | nil => exact Nat.le_refl _
  | cons query rest ih =>
    refine Nat.le_trans ?_ (ih (state.take query))
    unfold Fetching.take
    split
    · exact Nat.le_refl _
    · exact Nat.le_succ _

theorem failed_some {outputs : List Output} (sized : ∀ output ∈ outputs, taskCount output.nodes < 2 ^ 64)
    (many : ∃ output ∈ outputs, ¬ output.nodes.length < 2 ^ 31) (state : Fetching) :
    0 < ((outputs.map fun output => (output.id,output.answer)).foldl Fetching.take state).failed_layouts := by
  induction outputs generalizing state with
  | nil =>
    obtain ⟨_,listed,_⟩ := many
    cases listed
  | cons output rest ih =>
    obtain ⟨own,others⟩ := forall_mem_cons.mp sized
    rw [map_cons,foldl_cons]
    rw [exists_mem_cons_iff] at many
    rcases many with large | later
    · obtain ⟨message,failed⟩ := (getStepLayout_output own output.id.sattachId state.next_pe_start).2 large
      refine Nat.lt_of_lt_of_le ?_ (failed_grows _ _)
      simp [Fetching.take,failed]
    · exact ih others later _

theorem fetch_other {pairs : List (CStr × StepLayout)} {id : CStr} (absent : id ∉ pairs.map Prod.fst) {next_pe_start : Nat}
    {result : OrderedMap CStr StepLayout} : (fetchStepLayout next_pe_start result pairs).find id = result.find id := by
  induction pairs generalizing next_pe_start result with
  | nil => rfl
  | cons pair rest ih =>
    rw [map_cons,mem_cons,not_or] at absent
    rw [fetchStepLayout,ih absent.2,OrderedMap.find_insert,if_neg absent.1]

def stacked (next_pe_start : Nat) : List (CStr × StepLayout) → List NodeLayout
  | [] => []
  | (_,layout) :: rest => (layout.shift next_pe_start).nodes ++ stacked (next_pe_start + layout.numPEs) rest

def nodesOf (result : OrderedMap CStr StepLayout) (id : CStr) : List NodeLayout := ((result.find id).map StepLayout.nodes).getD []

theorem fetch_stacked {pairs : List (CStr × StepLayout)} (distinct : (pairs.map Prod.fst).Nodup) :
    (pairs.map Prod.fst).flatMap (nodesOf (fetchStepLayout next_pe_start result pairs)) = stacked next_pe_start pairs := by
  induction pairs generalizing next_pe_start result with
  | nil => rfl
  | cons pair rest ih =>
    obtain ⟨absent,distinct⟩ := nodup_cons.mp distinct
    rw [map_cons,flatMap_cons,stacked,fetchStepLayout,ih distinct,nodesOf,fetch_other absent,OrderedMap.find_insert,
      if_pos rfl]
    rfl

def expected (start : Nat) : List LayoutNode → List NodeLayout
  | [] => []
  | node :: rest => ⟨node.host,node.tasks,start⟩ :: expected (start + node.tasks) rest

theorem expected_append : expected start (left ++ right) = expected start left ++ expected (start + taskCount left) right := by
  induction left generalizing start with
  | nil => rfl
  | cons node rest ih =>
    rw [cons_append,expected,expected,ih]
    simp [taskCount,Nat.add_assoc]

theorem expected_length : (expected start nodes).length = nodes.length := by
  induction nodes generalizing start with
  | nil => rfl
  | cons node rest ih => rw [expected,length_cons,length_cons,ih]

theorem placeNodes_length : (placeNodes pe_offset running_rank_total entries).length = entries.length := by
  induction entries generalizing running_rank_total with
  | nil => rfl
  | cons entry rest ih => rw [placeNodes,length_cons,length_cons,ih]

def wrapped (total : Nat) : Int := Int.bmod total (2 ^ 32)

theorem wrapped_add {total tasks : Nat} : Int.bmod (wrapped total + tasks) (2 ^ 32) = wrapped (total + tasks) := by
  have added : Int.bmod (wrapped total + tasks) (2 ^ 32) = Int.bmod ((total : Int) + tasks) (2 ^ 32) := Int.bmod_add_bmod
  exact added.trans (congrArg (Int.bmod · (2 ^ 32)) (Nat.cast_add total tasks).symm)

theorem wrapped_exact (positive : 0 < total) : (if 0 < wrapped total then (wrapped total).toNat else 0) = total ↔ total < 2 ^ 31 := by
  unfold wrapped
  rw [Int.bmod_def]
  split <;> split <;> omega

theorem place_program (pe_offset total : Nat) (nodes : List LayoutNode) (rest : List (Nat × LayoutNode)) :
    placeNodes pe_offset (wrapped total) (ranked total nodes ++ rest) =
      expected (total + pe_offset) nodes ++ placeNodes pe_offset (wrapped (total + taskCount nodes)) rest := by
  induction nodes generalizing total with
  | nil => rfl
  | cons node nodes ih =>
    have here : placeNode pe_offset (wrapped total) (total,node) = ⟨node.host,node.tasks,total + pe_offset⟩ := by
      unfold placeNode
      rw [if_neg]
      rintro ⟨running,zero⟩
      dsimp only at zero
      subst zero
      exact absurd running (by decide)
    have start : total + node.tasks + pe_offset = total + pe_offset + node.tasks := Nat.add_right_comm _ _ _
    have count : total + node.tasks + taskCount nodes = total + taskCount (node :: nodes) := by
      rw [taskCount,taskCount,map_cons,sum_cons,Nat.add_assoc]
    rw [ranked,cons_append,placeNodes,here,wrapped_add,ih,expected,cons_append,start,count]

theorem place_restart (pe_offset : Nat) (positive : 0 < total) {program : Program} {rest : List (Nat × LayoutNode)}
    {later : List NodeLayout} :
    placeNodes pe_offset (wrapped total) (ranked 0 program.1 ++ rest) = expected (total + pe_offset) program.1 ++ later ↔
      total < 2 ^ 31 ∧ program.1.length = 1 ∧ placeNodes pe_offset (wrapped (total + taskCount program.1)) rest = later := by
  obtain ⟨nodes,some'⟩ := program
  obtain ⟨node,more,rfl⟩ := exists_cons_of_ne_nil some'
  rw [ranked,cons_append,placeNodes,wrapped_add,expected,cons_append,List.cons.injEq]
  have first : placeNode pe_offset (wrapped total) (0,node) = ⟨node.host,node.tasks,total + pe_offset⟩ ↔ total < 2 ^ 31 := by
    rw [← wrapped_exact positive]
    simp [placeNode]
  rw [first]
  refine and_congr_right fun _ => ?_
  cases more with
  | nil => simp [ranked,expected,taskCount]
  | cons second more =>
    have tasks := node.positive
    simp only [ranked,cons_append,placeNodes,expected,List.cons.injEq,length_cons]
    refine ⟨fun same => ?_,fun wrong => (by omega)⟩
    have start := congrArg NodeLayout.firstPE same.1
    simp only [placeNode] at start
    rw [if_neg (by omega)] at start
    omega

theorem place_programs (positive : 0 < total) {programs : List Program} :
    placeNodes pe_offset (wrapped total) (programs.flatMap fun program => ranked 0 program.1) =
        expected (total + pe_offset) (programs.flatMap Subtype.val) ↔ ∀ before program after, programs = before ++ program :: after →
        program.1.length = 1 ∧ total + taskCount (before.flatMap Subtype.val) < 2 ^ 31 := by
  induction programs generalizing total with
  | nil => simp [placeNodes,expected]
  | cons program rest ih =>
    rw [flatMap_cons,flatMap_cons,expected_append,place_restart pe_offset positive,Nat.add_right_comm,ih (by omega)]
    constructor
    · rintro ⟨small,single,others⟩ before other after parts
      cases before with
      | nil =>
        obtain ⟨rfl,_⟩ := List.cons.inj parts
        exact ⟨single,by simpa [taskCount] using small⟩
      | cons first before =>
        obtain ⟨rfl,behind⟩ := List.cons.inj parts
        obtain ⟨alone,bound⟩ := others before other after behind
        refine ⟨alone,?_⟩
        rw [flatMap_cons,taskCount_append]
        omega
    · intro all
      obtain ⟨single,small⟩ := all [] program rest rfl
      refine ⟨by simpa [taskCount] using small,single,fun before other after parts => ?_⟩
      obtain ⟨alone,bound⟩ := all (program :: before) other after (by rw [parts]; rfl)
      rw [flatMap_cons,taskCount_append] at bound
      exact ⟨alone,by omega⟩

-- Every component of the output but the first is on one node, and the tasks before it are
-- within the range of int.
def Output.Restartable (output : Output) : Prop := ∀ before program after, output.programs = before ++ program :: after → before ≠ [] →
  program.1.length = 1 ∧ taskCount (before.flatMap Subtype.val) < 2 ^ 31

theorem taskCount_pos {program : Program} : 0 < taskCount program.1 := by
  obtain ⟨nodes,some'⟩ := program
  obtain ⟨node,more,rfl⟩ := exists_cons_of_ne_nil some'
  have positive := node.positive
  simp only [taskCount,map_cons,sum_cons]
  omega

theorem place_output {output : Output} : placeNodes pe_offset 0 output.entries = expected pe_offset output.nodes ↔ output.Restartable := by
  unfold Output.entries Output.nodes Output.Restartable
  cases output.programs with
  | nil => simp [placeNodes,expected]
  | cons program rest =>
    have first := place_program pe_offset 0 program.1 (rest.flatMap fun program => ranked 0 program.1)
    simp only [Nat.zero_add] at first
    have zero : wrapped 0 = 0 := rfl
    rw [zero] at first
    rw [flatMap_cons,flatMap_cons,first,expected_append,append_cancel_left_eq,Nat.add_comm pe_offset,
      place_programs taskCount_pos]
    constructor
    · intro later before other after parts some'
      obtain ⟨first,before,rfl⟩ := exists_cons_of_ne_nil some'
      obtain ⟨rfl,behind⟩ := List.cons.inj parts
      rw [flatMap_cons,taskCount_append]
      exact later before other after behind
    · intro all before other after parts
      have own := all (program :: before) other after (by rw [parts]; rfl) (cons_ne_nil _ _)
      rwa [flatMap_cons,taskCount_append] at own

theorem stacked_expected {outputs : List Output} :
    stacked next_pe_start (outputs.map Output.parsed) = expected next_pe_start (outputs.flatMap Output.nodes) ↔
      ∀ output ∈ outputs, output.Restartable := by
  induction outputs generalizing next_pe_start with
  | nil => simp [stacked,expected]
  | cons output rest ih =>
    have shifted : ((output.layout 0).shift next_pe_start).nodes = placeNodes next_pe_start 0 output.entries := by
      rw [← layout_shift]
      rfl
    have total : (output.layout 0).numPEs = taskCount output.nodes := rfl
    rw [map_cons,Output.parsed,stacked,flatMap_cons,expected_append,shifted,total,forall_mem_cons,
      ← place_output,← ih]
    refine ⟨fun same => append_inj same ?_,fun both => by rw [both.1,both.2]⟩
    rw [placeNodes_length,expected_length,entries_length]

def interval (node : NodeLayout) : Nat × Nat := (node.firstPE,node.numPEs)

-- The layouts of the components in the order of the job ids: the nodes with their counts as
-- they are listed, and their ranks without gaps or overlaps.
structure Partitioned (job : LayoutJob) (result : OrderedMap CStr StepLayout) : Prop where
  listed : ((job.outputs.map fun output => output.id.srunId).flatMap (nodesOf result)).map (fun node => (node.hostname,node.numPEs)) =
    job.nodes.map fun node => (node.host,node.tasks)
  tiles : Tiles 0 (taskCount job.nodes) (((job.outputs.map fun output => output.id.srunId).flatMap (nodesOf result)).map interval)

theorem expected_listed :
    (expected start nodes).map (fun node => (node.hostname,node.numPEs)) = nodes.map fun node => (node.host,node.tasks) := by
  induction nodes generalizing start with
  | nil => rfl
  | cons node rest ih => rw [expected,map_cons,map_cons,ih]

theorem expected_packed : (expected start nodes).map interval = packed start (nodes.map LayoutNode.tasks) := by
  induction nodes generalizing start with
  | nil => rfl
  | cons node rest ih => rw [expected,map_cons,map_cons,packed,ih]; rfl

theorem layouts_inj {left right : List NodeLayout} (hosts : left.map (fun node => (node.hostname,node.numPEs)) =
    right.map fun node => (node.hostname,node.numPEs)) (intervals : left.map interval = right.map interval) : left = right := by
  induction left generalizing right with
  | nil => exact (map_eq_nil_iff.mp intervals.symm).symm
  | cons node left ih =>
    cases right with
    | nil => cases intervals
    | cons other right =>
      simp only [map_cons,List.cons.injEq,interval,Prod.mk.injEq] at hosts intervals
      have same : node = other := by
        cases node
        simp_all
      rw [same,ih hosts.2 intervals.2]

theorem tiles_expected {nodes : List LayoutNode} {layouts : List NodeLayout}
    (listed : layouts.map (fun node => (node.hostname,node.numPEs)) = nodes.map fun node => (node.host,node.tasks)) :
    Tiles 0 (taskCount nodes) (layouts.map interval) ↔ layouts = expected 0 nodes := by
  have lengths : (layouts.map interval).map Prod.snd = nodes.map LayoutNode.tasks := by
    have tasks := congrArg (List.map Prod.snd) listed
    simpa [interval,Function.comp_def] using tasks
  have positive : ∀ part ∈ layouts.map interval, 0 < part.2 := by
    intro part inside
    have counted := lengths ▸ mem_map_of_mem inside
    obtain ⟨node,_,same⟩ := mem_map.mp counted
    exact same ▸ node.positive
  rw [tiles_iff positive (by rw [lengths,Nat.zero_add]; rfl),lengths,← expected_packed]
  refine ⟨fun same => layouts_inj ?_ same,fun same => by rw [same]⟩
  rw [listed,expected_listed]

theorem stacked_listed (outputs : List Output) (next_pe_start : Nat) :
    (stacked next_pe_start (outputs.map Output.parsed)).map (fun node => (node.hostname,node.numPEs)) =
      (outputs.flatMap Output.nodes).map fun node => (node.host,node.tasks) := by
  have placed : ∀ (entries : List (Nat × LayoutNode)) (running : Int), (placeNodes 0 running entries).map
      (fun node => (node.hostname,node.numPEs)) = entries.map fun entry => (entry.2.host,entry.2.tasks) := by
    intro entries
    induction entries with
    | nil => intro running; rfl
    | cons entry rest ih => intro running; rw [placeNodes,map_cons,map_cons,ih]; rfl
  have listed : ∀ (nodes : List LayoutNode) (first : Nat), (ranked first nodes).map Prod.snd = nodes := by
    intro nodes
    induction nodes with
    | nil => intro first; rfl
    | cons node rest ih => intro first; rw [ranked,map_cons,ih]
  have own : ∀ output : Output, output.entries.map Prod.snd = output.nodes := by
    simp [Output.entries,Output.nodes,map_flatMap,listed]
  induction outputs generalizing next_pe_start with
  | nil => rfl
  | cons output rest ih =>
    rw [map_cons,Output.parsed,stacked,map_append,ih,flatMap_cons,map_append,← own output]
    simp only [StepLayout.shift,Output.layout,map_map,Function.comp_def,NodeLayout.shift,placed]

def twoTasks (nodeNum : Nat) (host : CStr) (word : 32 ∉ host.1) : LayoutNode :=
  ⟨nodeNum,host,2,ascii " 1 ",word,by decide,by decide +kernel⟩

def plainId : HetJobId := ⟨123,0,none,false,false,false⟩

def twoPrograms : LayoutJob where
  outputs := [⟨plainId,[⟨[twoTasks 0 computeOne (by decide)],cons_ne_nil _ _⟩,
    ⟨[twoTasks 1 computeTwo (by decide),twoTasks 2 computeOne (by decide)],cons_ne_nil _ _⟩],ascii "cn[01-02]"⟩]
  distinct := by decide
  sized := by decide

end CommonTools.Slurm
