import CommonTools.Library.Programs
import CommonTools.FeDaemon.Answers

namespace CommonTools.FeDaemon
open Programs Streams List

-- How the bytes of a channel come in, read by read.
structure Cutting where
  cut : List Cell → Chunks Cell
  whole : ∀ cells, (cut cells).flatten = cells

-- A call of a request_ function: what it is for, how the daemon's operation turns
-- out, and how either side gets the bytes.
structure Round where
  request : Request
  perform : Operations
  pad : Padding
  daemonReads : Cutting
  clientReads : Cutting

def Round.outcome (round : Round) : Except CStr (Answer round.request.type.family) :=
  round.perform.run round.request.type round.request.meant

def Round.serve (round : Round) (cells : List Cell) : Except Failure Served × List Cell :=
  let (served,unread) := Streams.outcome (FeDaemon.serve round.pad round.perform (round.daemonReads.cut cells))
  (served,unread.flatten)

def Round.receive (round : Round) (cells : List Cell) : Except Failure Returned × List Cell :=
  let (result,unread) := Streams.outcome (round.request.await (round.clientReads.cut cells))
  (result,unread.flatten)

-- Both channels, and what has been understood and returned so far.
structure Conversation where
  requests : List Cell
  responses : List Cell
  handled : List (Option Command)
  returned : List (Except Failure Returned)
  running : Bool

def Conversation.start : Conversation := ⟨[],[],[],[],true⟩

-- The call writes and waits, the daemon takes a turn of its loop, the call reads.
-- What either of them leaves unread is there in the next round.
def Conversation.next (conversation : Conversation) (round : Round) : Conversation :=
  if conversation.running then
    match round.serve (conversation.requests ++ round.request.cells) with
    | (.error _,unread) => {conversation with requests := unread,running := false}
    | (.ok served,unread) => match round.receive (conversation.responses ++ served.response) with
      | (result,unread') => ⟨unread,unread',conversation.handled ++ [served.command],conversation.returned ++ [result],
        served.running⟩
  else conversation

-- A round that goes by the book: the daemon has not been shut down, each text of the
-- request and of the answer is fit for the readers.
structure Conversation.Admits (conversation : Conversation) (round : Round) : Prop where
  running : conversation.running = true
  framed : round.request.Framed
  answered : Answered round.request.type.family round.outcome

structure Conversation.InStep (conversation : Conversation) (rounds : List Round) : Prop where
  requests : conversation.requests = []
  responses : conversation.responses = []
  handled : conversation.handled = rounds.map fun round => some round.request.meant
  returned : conversation.returned = rounds.map fun round => round.request.seen round.outcome

theorem serve_framed {round : Round} (framed : round.request.Framed) :
    round.serve round.request.cells = (.ok (round.request.served round.pad round.perform),[]) := by
  have whole := (round.daemonReads.whole round.request.cells).trans (append_nil _).symm
  obtain ⟨unread,served,left⟩ := consumes_serve round.pad round.perform round.request framed _ [] whole
  simp only [Round.serve,served,left]

theorem receive_answered {round : Round} (answered : Answered round.request.type.family round.outcome) :
    round.receive (respond round.pad round.request.type.family round.outcome) = (round.request.seen round.outcome,[]) := by
  have whole := (round.clientReads.whole (respond round.pad _ round.outcome)).trans (append_nil _).symm
  obtain ⟨unread,returned,left⟩ := consumes_await round.pad answered _ [] whole
  simp only [Round.receive,returned,left]

theorem next_admitted {conversation : Conversation} {round : Round} (requests : conversation.requests = []) (responses : conversation.responses = [])
    (admitted : conversation.Admits round) : conversation.next round = ⟨[],[],conversation.handled ++ [some round.request.meant],
      conversation.returned ++ [round.request.seen round.outcome],decide (round.request.type ≠ .Shutdown)⟩ := by
  have received : round.receive (round.request.served round.pad round.perform).response = _ := receive_answered admitted.answered
  simp only [Conversation.next,admitted.running,if_true,requests,responses,nil_append,serve_framed admitted.framed,received]
  rfl

theorem next_inStep {round : Round} (before : Conversation.InStep conversation rounds) (admitted : conversation.Admits round) :
    (conversation.next round).InStep (rounds ++ [round]) := by
  rw [next_admitted before.requests before.responses admitted]
  refine ⟨rfl,rfl,?_,?_⟩
  · rw [before.handled,map_append]
    rfl
  · rw [before.returned,map_append]
    rfl

def inOneGo : Cutting := ⟨fun cells => [cells],fun cells => append_nil cells⟩

def byteByByte : Cutting := ⟨fun cells => cells.map ([·]),fun cells => by rw [← flatMap_def,flatMap_singleton']⟩

def zeroes : Padding := fun size => ⟨List.replicate size 0,length_replicate⟩

def failing : Operations := fun _ _ => .error ⟨ascii "failed",by decide⟩

def srun : Launch :=
  ⟨⟨ascii "srun",by decide⟩,[⟨ascii "-n1",by decide⟩],-1,-2,-1,
    some [⟨ascii "CTIBLACKLIST_LD_PRELOAD=",by decide⟩,⟨ascii "A=b c",by decide⟩]⟩

def launchAndStop : List Round :=
  [⟨.launchMPIR srun,failing,zeroes,byteByByte,inOneGo⟩,⟨.shutdown,failing,zeroes,inOneGo,byteByByte⟩]

theorem launchAndStop_admitted : AdmittedAlong Conversation.Admits Conversation.next .start launchAndStop := by
  have fits : (ascii "failed").length + 1 < 2 ^ 64 := by decide
  have framed : srun.Framed := ⟨by decide,by decide,by decide,by decide,by decide,by decide +kernel⟩
  have first : Conversation.start.Admits ⟨.launchMPIR srun,failing,zeroes,byteByByte,inOneGo⟩ := ⟨rfl,framed,fits⟩
  refine ⟨first,⟨?_,trivial,trivial⟩,trivial⟩
  rw [next_admitted rfl rfl first]
  rfl

def attachTo (path : CStr) : Round := ⟨.attachMPIR path 5,failing,zeroes,inOneGo,inOneGo⟩

end CommonTools.FeDaemon
