/-! The IRIs that the library itself writes and looks for: those of RDF and XML Schema,
and the vocabulary of context conditions. -/
namespace ContextPolicy.Names

/-! ### RDF -/

namespace Rdf

def space : String := "http://www.w3.org/1999/02/22-rdf-syntax-ns#"
def type : String := "http://www.w3.org/1999/02/22-rdf-syntax-ns#type"
def first : String := "http://www.w3.org/1999/02/22-rdf-syntax-ns#first"
def rest : String := "http://www.w3.org/1999/02/22-rdf-syntax-ns#rest"
def nil : String := "http://www.w3.org/1999/02/22-rdf-syntax-ns#nil"

/-! Statements about statements. -/

def statement : String := "http://www.w3.org/1999/02/22-rdf-syntax-ns#Statement"
def subject : String := "http://www.w3.org/1999/02/22-rdf-syntax-ns#subject"
def predicate : String := "http://www.w3.org/1999/02/22-rdf-syntax-ns#predicate"
def object : String := "http://www.w3.org/1999/02/22-rdf-syntax-ns#object"

/-! Names that RDF/XML gives a meaning of its own. -/

def document : String := "http://www.w3.org/1999/02/22-rdf-syntax-ns#RDF"
def description : String := "http://www.w3.org/1999/02/22-rdf-syntax-ns#Description"
def item : String := "http://www.w3.org/1999/02/22-rdf-syntax-ns#li"
def about : String := "http://www.w3.org/1999/02/22-rdf-syntax-ns#about"
def aboutEach : String := "http://www.w3.org/1999/02/22-rdf-syntax-ns#aboutEach"
def aboutEachPrefix : String := "http://www.w3.org/1999/02/22-rdf-syntax-ns#aboutEachPrefix"
def bagId : String := "http://www.w3.org/1999/02/22-rdf-syntax-ns#bagID"
def datatype : String := "http://www.w3.org/1999/02/22-rdf-syntax-ns#datatype"
def id : String := "http://www.w3.org/1999/02/22-rdf-syntax-ns#ID"
def nodeId : String := "http://www.w3.org/1999/02/22-rdf-syntax-ns#nodeID"
def parseType : String := "http://www.w3.org/1999/02/22-rdf-syntax-ns#parseType"
def resource : String := "http://www.w3.org/1999/02/22-rdf-syntax-ns#resource"

/-- The membership property of a number. -/
def member (n : Nat) : String :=
  space ++ "_" ++ toString n

end Rdf

/-! ### XML Schema -/

namespace Xsd

def space : String := "http://www.w3.org/2001/XMLSchema#"
def string : String := "http://www.w3.org/2001/XMLSchema#string"
def decimal : String := "http://www.w3.org/2001/XMLSchema#decimal"
def date : String := "http://www.w3.org/2001/XMLSchema#date"
def time : String := "http://www.w3.org/2001/XMLSchema#time"
def integer : String := "http://www.w3.org/2001/XMLSchema#integer"
def double : String := "http://www.w3.org/2001/XMLSchema#double"
def boolean : String := "http://www.w3.org/2001/XMLSchema#boolean"

end Xsd

/-! ### Context conditions -/

namespace Context

def space : String := "urn:policy:context#"

def accessCondition : String := "urn:policy:context#AccessCondition"
def userCondition : String := "urn:policy:context#UserCondition"
def timeCondition : String := "urn:policy:context#TimeCondition"
def outdoorCondition : String := "urn:policy:context#OutdoorCondition"
def environmentCondition : String := "urn:policy:context#EnvironmentCondition"
def deviceCondition : String := "urn:policy:context#DeviceCondition"

/-! Links from a condition to its blocks. -/

def user : String := "urn:policy:context#user"
def time : String := "urn:policy:context#time"
def outdoor : String := "urn:policy:context#outdoor"
def environment : String := "urn:policy:context#environment"
def device : String := "urn:policy:context#device"

/-! What a block holds. -/

def condition : String := "urn:policy:context#condition"
def askQuery : String := "urn:policy:context#askQuery"
def expression : String := "urn:policy:context#expression"
def allOf : String := "urn:policy:context#allOf"
def anyOf : String := "urn:policy:context#anyOf"
def not : String := "urn:policy:context#not"
def begin : String := "urn:policy:context#begin"
def «end» : String := "urn:policy:context#end"
def latitude : String := "urn:policy:context#latitude"
def longitude : String := "urn:policy:context#longitude"
def radius : String := "urn:policy:context#radius"
def unit : String := "urn:policy:context#unit"

/-! What the ASK queries test a context for. -/

def now : String := "urn:policy:context#now"
def timeOfDay : String := "urn:policy:context#timeOfDay"
def positionLatitude : String := "urn:policy:context#positionLatitude"
def positionLongitude : String := "urn:policy:context#positionLongitude"
def distance : String := "urn:policy:context#distance"

end Context

end ContextPolicy.Names
